import Mathlib.Data.List.Basic
import TreeStyle.Proofs.Matching.Memo

/-!
# Traversals as loops

A reader of a tree goes up by a loop over parents, and down by a loop over a stack of
nodes that are still to be visited.  A loop is stated here by what it passes, so that to
say that it passes a list is to say that it ends (`TreeView.Climbs`, `TreeView.Visits`).

The siblings before a node are looked up by their places, among the children of a parent
that need not have that many.  Where each look-up may fail, so may the candidates of a
combinator and the question whether a chain matches (`TreeView.related?`, `matchesWith?`).
None of them fails if the places of the nodes are in range (`TreeView.InRange`).

Main statements: `TreeView.climbs_iff`, `TreeView.visits_iff`,
`TreeView.InRange.related?_eq` and `TreeView.InRange.matchesWith?_eq`.
-/

namespace TreeStyle

set_option autoImplicit false

namespace TreeView

variable {Node : Type} (view : TreeView Node)

/-! ## The loop up -/

/-- What a loop passes that goes on from a node to its parent until there is none. -/
inductive Climbs : Option Node → List Node → Prop where
  | stop : Climbs none []
  | up {node : Node} {passed : List Node} (further : Climbs (view.parent node) passed) :
      Climbs (some node) (node :: passed)

/-- **The loop up ends**, and has passed the ancestors. -/
theorem climbs_iff (node : Node) (passed : List Node) :
    view.Climbs (view.parent node) passed ↔ passed = view.ancestors node := by
  induction size : view.height node using Nat.strongRecOn generalizing node passed with
  | ind size ih =>
    cases up : view.parent node with
    | none =>
      rw [view.ancestors_of_root up]
      constructor
      · rintro ⟨⟩
        rfl
      · rintro rfl
        exact .stop
    | some above =>
      have lower := view.height_parent up
      have further (rest : List Node) := ih (view.height above) (by omega) above rest rfl
      rw [view.ancestors_of_parent up]
      constructor
      · rintro ⟨⟩
        next rest climbs => rw [(further rest).mp climbs]
      · rintro rfl
        exact .up ((further _).mpr rfl)

/-! ## The loop down -/

/-- What a loop visits that takes a node from the top of a stack, which is its end, and
puts the children of the node there, the first child on top. -/
inductive Visits : List (Node × Nat) → List (Node × Nat) → Prop where
  | stop : Visits [] []
  | down {stack visited : List (Node × Nat)} {node : Node} {distance : Nat}
      (further : Visits
        (stack ++ (view.children node).reverse.map fun child => (child, distance + 1)) visited) :
      Visits (stack ++ [(node, distance)]) ((node, distance) :: visited)

/-- The walks from the nodes of a stack, from the top. -/
def walks (stack : List (Node × Nat)) : List (Node × Nat) :=
  stack.reverse.flatMap fun entry => view.walk entry.1 entry.2

/-- A node on top is visited first, and then its children are, as if they were on top. -/
theorem walks_concat (stack : List (Node × Nat)) (node : Node) (distance : Nat) :
    view.walks (stack ++ [(node, distance)]) =
      (node, distance) :: view.walks
        (stack ++ (view.children node).reverse.map fun child => (child, distance + 1)) := by
  simp only [walks, List.reverse_append, List.reverse_singleton, List.singleton_append,
    List.flatMap_cons, List.flatMap_append, ← List.map_reverse, List.reverse_reverse,
    List.flatMap_map]
  rw [walk_eq, List.cons_append]

/-- **The loop down ends**, and has walked from each node of the stack. -/
theorem visits_iff (stack visited : List (Node × Nat)) :
    view.Visits stack visited ↔ visited = view.walks stack := by
  constructor
  · intro visits
    induction visits with
    | stop => rfl
    | down _ ih => rw [walks_concat, ih]
  · -- Each turn of the loop visits one node, so the nodes to be visited get fewer.
    induction visited generalizing stack with
    | nil =>
      intro none
      rcases List.eq_nil_or_concat' stack with rfl | ⟨rest, top, rfl⟩
      · exact .stop
      · rw [walks_concat] at none
        cases none
    | cons first visited ih =>
      intro some
      rcases List.eq_nil_or_concat' stack with rfl | ⟨rest, top, rfl⟩
      · cases some
      · rw [walks_concat, List.cons.injEq] at some
        obtain ⟨rfl, later⟩ := some
        exact .down (ih _ later)

theorem visits_root_iff (root : Node) (visited : List (Node × Nat)) :
    view.Visits [(root, 0)] visited ↔ visited = view.walk root := by
  rw [visits_iff, walks, List.reverse_singleton, List.flatMap_singleton]

/-! ## Looking candidates up -/

/-- The siblings before a node, each looked up by its place, nearest first. -/
def previousSiblings? (node : Node) : Option (List Node) :=
  match view.parent node with
  | none => some []
  | some above => (List.range (view.index node)).reverse.mapM fun place =>
    (view.children above)[place]?

/-- The candidates of a combinator, if every sibling that it asks for can be looked up. -/
def related? (combinator : Combinator) (node : Node) : Option (List Node) :=
  match combinator with
  | .child => some (view.parent node).toList
  | .twin =>
    match view.parent node, view.index node with
    | some above, place + 1 => (view.children above)[place]?.map fun sibling => [sibling]
    | _, _ => some []
  | .sibling => view.previousSiblings? node
  | .descendant => some (view.ancestors node)

/-- The place of a node is within the children of its parent, or right behind them. -/
def InRange (node : Node) : Prop :=
  ∀ above, view.parent node = some above → view.index node ≤ (view.children above).length

variable {view}

/-- Entries that exist are found one by one. -/
theorem mapM_getElem?_range {nodes : List Node} {count : Nat} (enough : count ≤ nodes.length) :
    (List.range count).reverse.mapM (fun place => nodes[place]?) =
      some (nodes.take count).reverse := by
  induction count with
  | zero => rfl
  | succ count ih =>
    have here := List.getElem?_eq_getElem enough
    rw [List.range_succ, List.reverse_concat, List.mapM_cons, here,
      ih (Nat.le_of_succ_le enough), List.take_add_one, here, Option.toList_some,
      List.reverse_concat]
    rfl

theorem InRange.previousSiblings?_eq {node : Node} (inRange : view.InRange node) :
    view.previousSiblings? node = some (view.previousSiblings node) := by
  rw [previousSiblings?, previousSiblings]
  cases up : view.parent node with
  | none => rfl
  | some above => exact mapM_getElem?_range (inRange above up)

/-- **No candidate is looked up out of range.** -/
theorem InRange.related?_eq {node : Node} (inRange : view.InRange node) (combinator : Combinator) :
    view.related? combinator node = some (view.related combinator node) := by
  cases combinator with
  | child => rfl
  | twin =>
    cases up : view.parent node with
    | none => simp only [related?, related, up]
    | some above =>
      cases index : view.index node with
      | zero => simp only [related?, related, up, index]
      | succ place =>
        have bound : place < (view.children above).length :=
          Nat.lt_of_lt_of_le (by rw [index]; exact Nat.lt_succ_self place) (inRange above up)
        simp only [related?, related, up, index, List.getElem?_eq_getElem bound, Option.map_some,
          Option.toList_some]
  | sibling => exact inRange.previousSiblings?_eq
  | descendant => rfl

end TreeView

/-! ## Matching by look-ups -/

section Matching

variable {Node : Type} (view : TreeView Node)

/-- Whether a node stands for an atom, if no candidate is out of range. -/
def matchesAt? (place : SelectorPlace) (atom : String) :
    (left : List (Combinator × String)) → Node → StateT Memo Option Bool
  | [], node => pure (view.kind node == atom)
  | (combinator, before) :: left, node => do
    if view.kind node == atom then
      let key : MemoKey := ⟨place, left.length + 1, view.key node⟩
      match (← get)[key]? with
      | some answer => return answer
      | none =>
        let candidates ← view.related? combinator node
        let answer ← candidates.anyM (matchesAt? place before left)
        modify (·.insert key answer)
        return answer
    else return false

/-- Whether a chain matches a node, if no candidate is out of range. -/
def matchesWith? (place : SelectorPlace) (chain : Chain) (node : Node) :
    StateT Memo Option Bool :=
  matchesAt? view place chain.leftward.1 chain.leftward.2 node

/-- Questions that do not fail are asked as those that cannot fail. -/
theorem anyM_eq_some {ask : Node → StateT Memo Option Bool} {plain : Node → StateM Memo Bool}
    (same : ∀ node memo, ask node memo = some (plain node memo)) (nodes : List Node)
    (memo : Memo) : nodes.anyM ask memo = some (nodes.anyM plain memo) := by
  induction nodes generalizing memo with
  | nil => rfl
  | cons node nodes ih =>
    rw [anyM_cons_run]
    simp only [List.anyM, bind, StateT.bind, same node memo, Option.bind_some]
    cases (plain node memo).1 with
    | true => rfl
    | false => exact ih _

variable {view} (inRange : ∀ node, view.InRange node)
include inRange

theorem TreeView.InRange.matchesAt?_eq (place : SelectorPlace) (atom : String)
    (left : List (Combinator × String)) (node : Node) (memo : Memo) :
    matchesAt? view place atom left node memo =
      some (matchesAt view place atom left node memo) := by
  induction left generalizing atom node memo with
  | nil => rfl
  | cons link left ih =>
    obtain ⟨combinator, before⟩ := link
    rw [matchesAt_run, matchesAt?]
    cases view.kind node == atom with
    | false => rfl
    | true =>
      change (match memo[(⟨place, left.length + 1, view.key node⟩ : MemoKey)]? with
        | some answer => (pure answer : StateT Memo Option Bool)
        | none => do
          let candidates ← view.related? combinator node
          let answer ← candidates.anyM (matchesAt? view place before left)
          modify fun memo : Memo => memo.insert ⟨place, left.length + 1, view.key node⟩ answer
          return answer) memo = _
      cases memo[(⟨place, left.length + 1, view.key node⟩ : MemoKey)]? with
      | some answer => rfl
      | none =>
        have asked := anyM_eq_some (ih before) (view.related combinator node) memo
        rw [(inRange node).related?_eq combinator]
        change ((view.related combinator node).anyM (matchesAt? view place before left) memo).bind
          _ = _
        rw [asked]
        rfl

/-- **A chain is matched without a look-up out of range**, by whatever memo. -/
theorem TreeView.InRange.matchesWith?_eq (place : SelectorPlace) (chain : Chain) (node : Node)
    (memo : Memo) :
    matchesWith? view place chain node memo = some (matchesWith view place chain node memo) :=
  InRange.matchesAt?_eq inRange place _ _ node memo

end Matching

end TreeStyle
