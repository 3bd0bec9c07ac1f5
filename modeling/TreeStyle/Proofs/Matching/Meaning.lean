import TreeStyle.Proofs.Tree.WellFormed

/-!
# Matching without a memo

What a chain says of a node is defined by recursion along the chain, from right to
left, without a memo (`Chain.holds`).  The atoms of a chain are numbered from the
left, so the part of a chain that an entry of a memo is about is a prefix
(`Chain.upTo`).

Main statements: `Chain.holds_append`, `Chain.leftward_upTo_succ` and
`TreeView.Keyed.holds_eq`.
-/

namespace TreeStyle

set_option autoImplicit false

/-! ## Chains from the right -/

namespace Chain

/-- The atoms of a chain up to a number, with the combinators between them. -/
def upTo (chain : Chain) (atom : Nat) : Chain := ⟨chain.first, chain.links.take atom⟩

theorem upTo_length (chain : Chain) : chain.upTo chain.links.length = chain := by
  simp [upTo]

theorem leftwardFrom_append (atom : String) (links : List (Combinator × String))
    (combinator : Combinator) (last : String) (passed : List (Combinator × String)) :
    leftwardFrom atom (links ++ [(combinator, last)]) passed =
      (last, (combinator, (leftwardFrom atom links passed).1) ::
        (leftwardFrom atom links passed).2) := by
  induction links generalizing atom passed with
  | nil => rfl
  | cons link links ih => exact ih link.2 ((link.1, atom) :: passed)

/-- A further link of a chain is the first one on the way to the left. -/
theorem leftward_append (first : String) (links : List (Combinator × String))
    (combinator : Combinator) (last : String) :
    leftward ⟨first, links ++ [(combinator, last)]⟩ =
      (last, (combinator, (leftward ⟨first, links⟩).1) :: (leftward ⟨first, links⟩).2) :=
  leftwardFrom_append first links combinator last []

theorem length_leftwardFrom (atom : String) (links passed : List (Combinator × String)) :
    (leftwardFrom atom links passed).2.length = links.length + passed.length := by
  induction links generalizing atom passed with
  | nil => simp [leftwardFrom]
  | cons link links ih =>
    rw [leftwardFrom, ih, List.length_cons, List.length_cons]
    omega

theorem length_leftward (chain : Chain) : chain.leftward.2.length = chain.links.length := by
  simp [leftward, length_leftwardFrom]

/-- On the way to the left, each atom is reached from the next one. -/
theorem leftward_upTo_succ {chain : Chain} {atom before : String} {combinator : Combinator}
    {left : List (Combinator × String)} (bound : left.length < chain.links.length)
    (way : (chain.upTo (left.length + 1)).leftward = (atom, (combinator, before) :: left)) :
    (chain.upTo left.length).leftward = (before, left) := by
  rw [upTo, ← List.take_append_getElem bound] at way
  have split := leftward_append chain.first (chain.links.take left.length)
    chain.links[left.length].1 chain.links[left.length].2
  have same := split.symm.trans way
  simp only [Prod.mk.injEq, List.cons.injEq] at same
  obtain ⟨-, ⟨-, nearest⟩, rest⟩ := same
  exact Prod.ext nearest rest

end Chain

/-! ## What a chain says of a node -/

section Holds

variable {Node : Type} (view : TreeView Node)

/-- Whether a node stands for an atom, given the way to the left from it. -/
def holdsFrom (atom : String) : (left : List (Combinator × String)) → Node → Bool
  | [], node => view.kind node == atom
  | (combinator, before) :: left, node =>
    view.kind node == atom && (view.related combinator node).any (holdsFrom before left)

/-- Whether a chain matches a node, by its atoms from right to left. -/
def Chain.holds (chain : Chain) (node : Node) : Bool :=
  holdsFrom view chain.leftward.1 chain.leftward.2 node

/-- A chain of one atom says of which kind a node is. -/
theorem Chain.holds_first (first : String) (node : Node) :
    Chain.holds view ⟨first, []⟩ node = (view.kind node == first) := rfl

/-- A further link asks for a candidate of which the chain without the link holds. -/
theorem Chain.holds_append (first : String) (links : List (Combinator × String))
    (combinator : Combinator) (last : String) (node : Node) :
    Chain.holds view ⟨first, links ++ [(combinator, last)]⟩ node =
      (view.kind node == last &&
        (view.related combinator node).any (Chain.holds view ⟨first, links⟩)) := by
  rw [holds, leftward_append, holdsFrom]
  rfl

end Holds

/-! ## Handles on one node -/

namespace TreeView.Keyed

variable {Node : Type} {view : TreeView Node} {member : Node → Prop}
  (keyed : view.Keyed member)
include keyed

/-- What holds of one handle on a node holds of the others. -/
theorem holdsFrom_eq (atom : String) (left : List (Combinator × String)) {node other : Node}
    (inside : member node) (otherInside : member other) (same : view.key node = view.key other) :
    holdsFrom view atom left node = holdsFrom view atom left other := by
  have kind := (keyed.agree inside otherInside same).kind
  induction left generalizing atom node other with
  | nil => rw [holdsFrom, holdsFrom, kind]
  | cons link left ih =>
    obtain ⟨combinator, before⟩ := link
    have carried {node other : Node} (inside : member node) (otherInside : member other)
        (same : view.key node = view.key other) (found : (view.related combinator node).any
          (holdsFrom view before left) = true) :
        (view.related combinator other).any (holdsFrom view before left) = true := by
      obtain ⟨candidate, listed, holds⟩ := List.any_eq_true.mp found
      have key := List.mem_map_of_mem (f := view.key) listed
      rw [keyed.map_key_related combinator inside otherInside same] at key
      obtain ⟨twin, twinListed, twinKey⟩ := List.mem_map.mp key
      have twinInside := keyed.related_mem otherInside twinListed
      have candidateInside := keyed.related_mem inside listed
      have agree := keyed.agree twinInside candidateInside twinKey
      rw [← ih before twinInside candidateInside twinKey agree.kind] at holds
      exact List.any_eq_true.mpr ⟨twin, twinListed, holds⟩
    rw [holdsFrom, holdsFrom, kind]
    congr 1
    rw [Bool.eq_iff_iff]
    exact ⟨carried inside otherInside same, carried otherInside inside same.symm⟩

theorem holds_eq (chain : Chain) {node other : Node} (inside : member node)
    (otherInside : member other) (same : view.key node = view.key other) :
    chain.holds view node = chain.holds view other :=
  keyed.holdsFrom_eq _ _ inside otherInside same

end TreeView.Keyed

/-! ## Parts of a tree that can be searched -/

/-- The members are closed under candidates, and a chain says the same of handles with the
same key. -/
structure TreeView.Searchable {Node : Type} (view : TreeView Node) (member : Node → Prop) :
    Prop where
  related_mem : ∀ {combinator : Combinator} {node candidate : Node}, member node →
    candidate ∈ view.related combinator node → member candidate
  holds_eq : ∀ (chain : Chain) {node other : Node}, member node → member other →
    view.key node = view.key other → chain.holds view node = chain.holds view other

/-- A whole tree can be searched. -/
theorem TreeView.Keyed.searchable {Node : Type} {view : TreeView Node} {member : Node → Prop}
    (keyed : view.Keyed member) : view.Searchable member :=
  ⟨keyed.related_mem, keyed.holds_eq⟩

end TreeStyle
