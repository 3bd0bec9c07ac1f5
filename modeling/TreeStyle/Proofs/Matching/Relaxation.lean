import Mathlib.Data.List.Forall2
import TreeStyle.Proofs.Matching.Memo

/-!
# Selectors that ask for less

A parent is an ancestor, and the sibling right before a node is one of the siblings before
it.  So a combinator that is relaxed in this way keeps all of its candidates, and a
selector keeps all nodes that it matches, whichever of its combinators are relaxed.

A selector asks for less, too, if atoms are dropped at its left end.  The search then ends
at an earlier atom, and up to there it is the same search.

Main statements: `TreeView.related_subset`, `holdsFrom_of_append` and
`TreeView.Keyed.chainMatches_of_weaker`.
-/

namespace TreeStyle

set_option autoImplicit false

/-! ## Weaker selectors -/

/-- A combinator and one that asks for no more: it is kept, or an ancestor does for a
parent, or any sibling before a node does for the nearest one. -/
inductive Combinator.RelaxesTo : Combinator → Combinator → Prop
  | keep (combinator : Combinator) : RelaxesTo combinator combinator
  | child : RelaxesTo .child .descendant
  | twin : RelaxesTo .twin .sibling

namespace Chain

/-- A chain and one over the same atoms, each of whose combinators is kept or relaxed. -/
structure RelaxesTo (chain relaxed : Chain) : Prop where
  atoms : relaxed.atoms = chain.atoms
  combinators : List.Forall₂ Combinator.RelaxesTo chain.combinators relaxed.combinators

/-- What is left of a chain without some of its first atoms and the combinators after
them. -/
def IsEndOf (rest chain : Chain) : Prop :=
  ∃ count, rest.atoms = chain.atoms.drop count ∧
    rest.combinators = chain.combinators.drop count

/-- An atom with a combinator that is kept or relaxed. -/
def LinkRelaxesTo (link relaxed : Combinator × String) : Prop :=
  link.1.RelaxesTo relaxed.1 ∧ relaxed.2 = link.2

theorem RelaxesTo.links {chain relaxed : Chain} (relaxes : chain.RelaxesTo relaxed) :
    relaxed.first = chain.first ∧ List.Forall₂ LinkRelaxesTo chain.links relaxed.links := by
  obtain ⟨first, links⟩ := chain
  obtain ⟨other, weaker⟩ := relaxed
  obtain ⟨same, atoms⟩ := List.cons.inj relaxes.atoms
  refine ⟨same, ?_⟩
  have kinds : List.Forall₂ (fun link relaxed => relaxed.2 = link.2) links weaker := by
    have equal : List.Forall₂ Eq (weaker.map Prod.snd) (links.map Prod.snd) :=
      List.forall₂_eq_eq_eq ▸ atoms
    rw [List.forall₂_map_left_iff, List.forall₂_map_right_iff] at equal
    exact equal.flip
  have joints : List.Forall₂ (fun link relaxed => link.1.RelaxesTo relaxed.1) links weaker := by
    have relaxed := relaxes.combinators
    rw [Chain.combinators, Chain.combinators, List.forall₂_map_left_iff,
      List.forall₂_map_right_iff] at relaxed
    exact relaxed
  exact List.Forall₂.mp (fun _ _ joint kind => ⟨joint, kind⟩) joints kinds

/-! ## The way to the left -/

theorem leftwardFrom_relaxes {links weaker passed weakerPassed : List (Combinator × String)}
    (relaxes : List.Forall₂ LinkRelaxesTo links weaker) (atom : String)
    (before : List.Forall₂ LinkRelaxesTo passed weakerPassed) :
    (leftwardFrom atom weaker weakerPassed).1 = (leftwardFrom atom links passed).1 ∧
      List.Forall₂ LinkRelaxesTo (leftwardFrom atom links passed).2
        (leftwardFrom atom weaker weakerPassed).2 := by
  induction relaxes generalizing atom passed weakerPassed with
  | nil => exact ⟨rfl, before⟩
  | @cons link relaxed links weaker first _ ih =>
    obtain ⟨combinator, next⟩ := link
    obtain ⟨other, kind⟩ := relaxed
    obtain ⟨joint, rfl⟩ : Combinator.RelaxesTo combinator other ∧ kind = next := first
    exact ih kind (.cons ⟨joint, rfl⟩ before)

/-- What was passed before lies farthest to the left. -/
theorem leftwardFrom_eq_append (atom : String) (links passed : List (Combinator × String)) :
    leftwardFrom atom links passed =
      ((leftwardFrom atom links []).1, (leftwardFrom atom links []).2 ++ passed) := by
  induction links generalizing atom passed with
  | nil => rfl
  | cons link links ih =>
    obtain ⟨combinator, next⟩ := link
    rw [leftwardFrom, leftwardFrom, ih next ((combinator, atom) :: passed),
      ih next [(combinator, atom)]]
    simp

end Chain

/-! ## What weaker selectors say -/

section Holds

variable {Node : Type} (view : TreeView Node)

/-- **A relaxed combinator keeps its candidates.** -/
theorem TreeView.related_subset {combinator relaxed : Combinator}
    (relaxes : combinator.RelaxesTo relaxed) (node : Node) :
    view.related combinator node ⊆ view.related relaxed node := by
  intro candidate listed
  cases relaxes with
  | keep => exact listed
  | child =>
    have up : view.parent node = some candidate := by simpa [related] using listed
    rw [related_eq_ancestors, view.ancestors_of_parent up]
    exact List.mem_cons_self
  | twin =>
    unfold related at listed
    simp only at listed
    split at listed
    · next above place up index =>
      rw [Option.mem_toList] at listed
      simp only [related, previousSiblings, up, List.mem_reverse, index]
      exact mem_take_iff_getElem?.mpr ⟨place, Nat.lt_succ_self place, listed⟩
    · cases listed

variable {view}

theorem holdsFrom_of_relaxes {left weaker : List (Combinator × String)}
    (relaxes : List.Forall₂ Chain.LinkRelaxesTo left weaker) {atom : String} {node : Node}
    (holds : holdsFrom view atom left node = true) : holdsFrom view atom weaker node = true := by
  induction relaxes generalizing atom node with
  | nil => exact holds
  | @cons link relaxed left weaker first _ ih =>
    obtain ⟨combinator, before⟩ := link
    obtain ⟨other, kind⟩ := relaxed
    obtain ⟨joint, rfl⟩ : Combinator.RelaxesTo combinator other ∧ kind = before := first
    rw [holdsFrom, Bool.and_eq_true, List.any_eq_true] at holds ⊢
    obtain ⟨here, candidate, listed, further⟩ := holds
    exact ⟨here, candidate, view.related_subset joint node listed, ih further⟩

/-- What holds all the way to the left holds up to any atom on it. -/
theorem holdsFrom_of_append {left farther : List (Combinator × String)} {atom : String}
    {node : Node} (holds : holdsFrom view atom (left ++ farther) node = true) :
    holdsFrom view atom left node = true := by
  induction left generalizing atom node with
  | nil =>
    cases farther with
    | nil => exact holds
    | cons link farther => exact (Bool.and_eq_true_iff.mp holds).1
  | cons link left ih =>
    obtain ⟨combinator, before⟩ := link
    rw [List.cons_append, holdsFrom, Bool.and_eq_true, List.any_eq_true] at holds
    rw [holdsFrom, Bool.and_eq_true, List.any_eq_true]
    obtain ⟨here, candidate, listed, further⟩ := holds
    exact ⟨here, candidate, listed, ih further⟩

namespace Chain

/-- **A relaxed chain holds wherever the chain does.** -/
theorem RelaxesTo.holds {chain relaxed : Chain} (relaxes : chain.RelaxesTo relaxed) {node : Node}
    (holds : chain.holds view node = true) : relaxed.holds view node = true := by
  obtain ⟨first, links⟩ := relaxes.links
  obtain ⟨last, way⟩ := leftwardFrom_relaxes links chain.first .nil
  rw [Chain.holds, leftward, first, last]
  exact holdsFrom_of_relaxes way holds

/-- The first atom may be dropped. -/
theorem holds_of_cons {first next : String} {combinator : Combinator}
    {links : List (Combinator × String)} {node : Node}
    (holds : Chain.holds view ⟨first, (combinator, next) :: links⟩ node = true) :
    Chain.holds view ⟨next, links⟩ node = true := by
  have way : leftward ⟨first, (combinator, next) :: links⟩ =
      ((leftward ⟨next, links⟩).1, (leftward ⟨next, links⟩).2 ++ [(combinator, first)]) :=
    leftwardFrom_eq_append next links [(combinator, first)]
  rw [Chain.holds, way] at holds
  exact holdsFrom_of_append holds

/-- **The end of a chain holds wherever the chain does.** -/
theorem IsEndOf.holds {rest chain : Chain} (ends : rest.IsEndOf chain) {node : Node}
    (holds : chain.holds view node = true) : rest.holds view node = true := by
  obtain ⟨count, atoms, combinators⟩ := ends
  induction count generalizing chain with
  | zero =>
    have rebuilt := ofParts_atoms_combinators rest
    rw [atoms, combinators, List.drop_zero, List.drop_zero, ofParts_atoms_combinators] at rebuilt
    obtain rfl := Except.ok.inj rebuilt
    exact holds
  | succ count ih =>
    obtain ⟨first, links⟩ := chain
    cases links with
    | nil => simp [Chain.atoms] at atoms
    | cons link links => exact ih (holds_of_cons holds) atoms combinators

end Chain

end Holds

/-! ## What weaker selectors match -/

/-- **A selector that asks for less matches all the same.**  Of a chain that matches a node,
any combinators may be relaxed, and any number of atoms may be dropped on the left. -/
theorem TreeView.Keyed.chainMatches_of_weaker {Node : Type} {view : TreeView Node}
    {member : Node → Prop} (keyed : view.Keyed member) (chain : Chain) {node : Node}
    (inside : member node) (matched : chainMatches view chain node = true) :
    (∀ relaxed, chain.RelaxesTo relaxed → chainMatches view relaxed node = true) ∧
      ∀ rest : Chain, rest.IsEndOf chain → chainMatches view rest node = true := by
  rw [keyed.chainMatches_eq_holds chain inside] at matched
  constructor
  · intro relaxed relaxes
    rw [keyed.chainMatches_eq_holds relaxed inside]
    exact relaxes.holds matched
  · intro rest ends
    rw [keyed.chainMatches_eq_holds rest inside]
    exact ends.holds matched

/-- The string of a small tree comes right after the comment in a block. -/
theorem Forest.block_matches_weaker :
    1 < 3 ∧ chainMatches block.view ⟨"block", [(.child, "comment"), (.twin, "string")]⟩ 1 = true ∧
      chainMatches block.view ⟨"block", [(.descendant, "comment"), (.sibling, "string")]⟩ 1 =
        true ∧
      chainMatches block.view ⟨"comment", [(.twin, "string")]⟩ 1 = true := by
  have keyed := wellFormed_block.toKeyed
  have inside : 1 < 3 := by decide
  have matched :
      chainMatches block.view ⟨"block", [(.child, "comment"), (.twin, "string")]⟩ 1 = true := by
    rw [keyed.chainMatches_eq_holds _ inside]
    decide
  obtain ⟨relaxed, rest⟩ := keyed.chainMatches_of_weaker _ inside matched
  exact ⟨inside, matched, relaxed _ ⟨rfl, .cons .child (.cons .twin .nil)⟩, rest _ ⟨1, rfl, rfl⟩⟩

end TreeStyle
