import TreeStyle.Proofs.Styling.Pass

/-!
# Styles depend on the tree of the node

A search goes from a node to its candidates, from those to theirs, and so on.  Inside a
set of nodes that is closed under candidates, such as the nodes of one tree, it reads
nothing of the nodes outside.  So what chains and rules say is the same by two views that
coincide on the set (`TreeView.Coincide`), and a memo changes for none but its nodes
(`Memo.AgreesOutside`), even if what it held before was wrong.

Main statements: `TreeView.Coincide.holds_eq`, `TreeView.Coincide.styleOf_eq` and
`resolveWith_outside`.
-/

namespace TreeStyle

set_option autoImplicit false

variable {Node : Type} {view : TreeView Node} {member : Node → Prop}

/-! ## Views that coincide -/

/-- The members are closed under candidates, and another view says the same about them. -/
structure TreeView.Coincide (view other : TreeView Node) (member : Node → Prop) : Prop where
  related_mem : ∀ {combinator : Combinator} {node candidate : Node}, member node →
    candidate ∈ view.related combinator node → member candidate
  kind : ∀ {node : Node}, member node → other.kind node = view.kind node
  parent : ∀ {node : Node}, member node → other.parent node = view.parent node
  children : ∀ {node : Node}, member node → other.children node = view.children node
  /-- The place of a root is never asked for. -/
  index : ∀ {node above : Node}, member node → view.parent node = some above →
    other.index node = view.index node

namespace TreeView.Coincide

variable {other : TreeView Node} (coincide : view.Coincide other member)
include coincide

theorem parent_mem {node above : Node} (inside : member node)
    (up : view.parent node = some above) : member above := by
  have listed : above ∈ view.related .child node := by
    rw [related_eq_parent, up]
    exact List.mem_singleton_self above
  exact coincide.related_mem inside listed

theorem ancestors_eq {node : Node} (inside : member node) :
    other.ancestors node = view.ancestors node := by
  induction size : view.height node using Nat.strongRecOn generalizing node with
  | ind size ih =>
    have parent := coincide.parent inside
    cases up : view.parent node with
    | none => rw [view.ancestors_of_root up, other.ancestors_of_root (parent.trans up)]
    | some above =>
      have lower := view.height_parent up
      rw [view.ancestors_of_parent up, other.ancestors_of_parent (parent.trans up),
        ih (view.height above) (by omega) (coincide.parent_mem inside up) rfl]

theorem related_eq (combinator : Combinator) {node : Node} (inside : member node) :
    other.related combinator node = view.related combinator node := by
  have parent := coincide.parent inside
  cases combinator with
  | descendant => exact coincide.ancestors_eq inside
  | child => simp only [related, parent]
  | twin =>
    cases up : view.parent node with
    | none => simp only [related, parent, up]
    | some above =>
      have children := coincide.children (coincide.parent_mem inside up)
      simp only [related, parent, up, coincide.index inside up]
      cases view.index node with
      | zero => rfl
      | succ place => simp only [children]
  | sibling =>
    cases up : view.parent node with
    | none => simp only [related, previousSiblings, parent, up]
    | some above =>
      simp only [related, previousSiblings, parent, up, coincide.index inside up,
        coincide.children (coincide.parent_mem inside up)]

theorem holdsFrom_eq (atom : String) (left : List (Combinator × String)) {node : Node}
    (inside : member node) : holdsFrom other atom left node = holdsFrom view atom left node := by
  induction left generalizing atom node with
  | nil => rw [holdsFrom, holdsFrom, coincide.kind inside]
  | cons link left ih =>
    obtain ⟨combinator, before⟩ := link
    rw [holdsFrom, holdsFrom, coincide.kind inside, coincide.related_eq combinator inside]
    congr 1
    rw [Bool.eq_iff_iff, List.any_eq_true, List.any_eq_true]
    constructor
    · rintro ⟨candidate, listed, holds⟩
      exact ⟨candidate, listed, (ih before (coincide.related_mem inside listed)).symm.trans holds⟩
    · rintro ⟨candidate, listed, holds⟩
      exact ⟨candidate, listed, (ih before (coincide.related_mem inside listed)).trans holds⟩

/-- **A chain says the same by views that coincide.** -/
theorem holds_eq (chain : Chain) {node : Node} (inside : member node) :
    chain.holds other node = chain.holds view node :=
  coincide.holdsFrom_eq _ _ inside

/-- **A sheet gives the same style by views that coincide.** -/
theorem styleOf_eq (sheet : Stylesheet) (theme : Theme) {node : Node} (inside : member node) :
    sheet.styleOf other theme node = sheet.styleOf view theme node := by
  simp only [Stylesheet.styleOf, Rule.holds, coincide.holds_eq _ inside]

end TreeView.Coincide

/-! ## Entries about other nodes -/

/-- Two memos have the same entries about nodes other than the members. -/
def Memo.AgreesOutside (view : TreeView Node) (member : Node → Prop) (memo later : Memo) : Prop :=
  ∀ entry : MemoKey, (∀ node, member node → view.key node ≠ entry.node) →
    later[entry]? = memo[entry]?

section Outside

variable
  (related_mem : ∀ {combinator : Combinator} {node candidate : Node}, member node →
    candidate ∈ view.related combinator node → member candidate)
  (memo : Memo)
include related_mem

/-- A step of the matcher writes nothing about other nodes. -/
theorem matchesAt_outside (place : SelectorPlace) (atom : String)
    (left : List (Combinator × String)) {node : Node} (inside : member node) :
    Memo.Preserves (memo.AgreesOutside view member) (matchesAt view place atom left node) := by
  intro passed agrees
  induction left generalizing atom node passed with
  | nil => exact agrees
  | cons link left ih =>
    obtain ⟨combinator, before⟩ := link
    rw [matchesAt_run]
    split
    · split
      · exact agrees
      · have among : Memo.Preserves (memo.AgreesOutside view member)
            ((view.related combinator node).anyM (matchesAt view place before left)) :=
          Memo.preserves_anyM fun candidate listed => ih before (related_mem inside listed)
        intro entry outside
        have different :
            ((⟨place, left.length + 1, view.key node⟩ : MemoKey) == entry) = false := by
          rw [beq_eq_false_iff_ne]
          rintro rfl
          exact outside node inside rfl
        rw [Std.HashMap.getElem?_insert, different]
        exact among passed agrees entry outside
    · exact agrees

/-- **Finding a style writes nothing about other nodes.** -/
theorem resolveWith_outside (sheet : Stylesheet) (theme : Theme) {node : Node}
    (inside : member node) :
    memo.AgreesOutside view member (resolveWith view sheet theme node memo).2 :=
  resolveWith_preserves
    (fun place _ _ => matchesAt_outside related_mem memo place _ _ inside) theme memo
    fun _ _ => rfl

end Outside

end TreeStyle
