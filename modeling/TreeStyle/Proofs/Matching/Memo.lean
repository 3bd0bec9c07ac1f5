import TreeStyle.Proofs.Matching.Meaning

/-!
# One memo for many questions

A memo may be shared by all questions that are asked about a tree, whatever their
chains are and in whichever order they come.  Two properties carry this.  Every entry
of the memo states whether the prefix of its chain matches at its node
(`Memo.Sound`).  And the memo only takes a course of growing: an answer is written
where there was none (`Memo.Course`), because a question about an atom writes entries
for atoms further to the left before it writes its own.

The memos that a question passes through while it is answered are listed by the same
recursion that answers it (`memosAt`), so that the two properties can be stated for all
times and not only for those between two questions.

Main statements: `TreeView.Searchable.matchesAt_spec` and
`TreeView.Keyed.answerAll_eq_fresh_and_keeps`.
-/

namespace TreeStyle

set_option autoImplicit false

/-! ## Memos that grow -/

namespace Memo

/-- Every entry of the memo is an answer. -/
def Sound (memo : Memo) (isAnswer : MemoKey → Bool → Prop) : Prop :=
  ∀ (entry : MemoKey) (answer : Bool), memo[entry]? = some answer → isAnswer entry answer

/-- Every entry of the memo is an entry of another one, with the same answer. -/
def Keeps (memo later : Memo) : Prop :=
  ∀ (entry : MemoKey) (answer : Bool), memo[entry]? = some answer → later[entry]? = some answer

/-- The memos between a first and a last one: each is the one before, or comes from it by
writing an answer to an entry that was absent. -/
inductive Course (isAnswer : MemoKey → Bool → Prop) (first : Memo) : List Memo → Memo → Prop where
  | start : Course isAnswer first [first] first
  | rest {passed : List Memo} {last : Memo} (before : Course isAnswer first passed last) :
      Course isAnswer first (passed ++ [last]) last
  | write {passed : List Memo} {last : Memo} {entry : MemoKey} {answer : Bool}
      (before : Course isAnswer first passed last) (absent : last[entry]? = none)
      (correct : isAnswer entry answer) :
      Course isAnswer first (passed ++ [last.insert entry answer]) (last.insert entry answer)

theorem sound_empty (isAnswer : MemoKey → Bool → Prop) : Sound {} isAnswer := by
  intro entry answer found
  simp at found

theorem Sound.mono {memo : Memo} {isAnswer other : MemoKey → Bool → Prop}
    (weaker : ∀ entry answer, isAnswer entry answer → other entry answer)
    (sound : memo.Sound isAnswer) : memo.Sound other :=
  fun entry answer found => weaker entry answer (sound entry answer found)

theorem Sound.insert {memo : Memo} {isAnswer : MemoKey → Bool → Prop} {entry : MemoKey}
    {answer : Bool} (sound : memo.Sound isAnswer) (correct : isAnswer entry answer) :
    Sound (memo.insert entry answer) isAnswer := by
  intro other found same
  rw [Std.HashMap.getElem?_insert] at same
  split at same
  · next here =>
    obtain rfl := eq_of_beq here
    cases same
    exact correct
  · exact sound other found same

theorem keeps_insert {memo : Memo} {entry : MemoKey} (absent : memo[entry]? = none)
    (answer : Bool) : memo.Keeps (memo.insert entry answer) := by
  intro other found known
  rw [Std.HashMap.getElem?_insert]
  split
  · next here =>
    obtain rfl := eq_of_beq here
    rw [known] at absent
    cases absent
  · exact known

namespace Course

variable {isAnswer : MemoKey → Bool → Prop} {first last : Memo} {passed : List Memo}

theorem append {later : Memo} {further : List Memo} (before : Course isAnswer first passed last)
    (after : Course isAnswer last further later) :
    Course isAnswer first (passed ++ further) later := by
  induction after with
  | start => exact .rest before
  | rest _ ih =>
    rw [← List.append_assoc]
    exact .rest ih
  | write _ absent correct ih =>
    rw [← List.append_assoc]
    exact .write ih absent correct

theorem mono {other : MemoKey → Bool → Prop}
    (weaker : ∀ entry answer, isAnswer entry answer → other entry answer)
    (course : Course isAnswer first passed last) : Course other first passed last := by
  induction course with
  | start => exact .start
  | rest _ ih => exact .rest ih
  | write _ absent correct ih => exact .write ih absent (weaker _ _ correct)

theorem last_mem (course : Course isAnswer first passed last) : last ∈ passed := by
  cases course with
  | start => exact List.mem_singleton_self first
  | rest => exact List.mem_append_right _ (List.mem_singleton_self _)
  | write => exact List.mem_append_right _ (List.mem_singleton_self _)

/-- On a course that starts with answers, every memo has answers alone. -/
theorem sound (course : Course isAnswer first passed last) (before : first.Sound isAnswer) :
    ∀ memo ∈ passed, memo.Sound isAnswer := by
  induction course with
  | start =>
    intro memo member
    rw [List.mem_singleton.mp member]
    exact before
  | rest course ih =>
    intro memo member
    rcases List.mem_append.mp member with earlier | here
    · exact ih memo earlier
    · rw [List.mem_singleton.mp here]
      exact ih _ course.last_mem
  | write course absent correct ih =>
    intro memo member
    rcases List.mem_append.mp member with earlier | here
    · exact ih memo earlier
    · rw [List.mem_singleton.mp here]
      exact (ih _ course.last_mem).insert correct

theorem keeps_last (course : Course isAnswer first passed last) :
    ∀ memo ∈ passed, memo.Keeps last := by
  induction course with
  | start =>
    intro memo member
    rw [List.mem_singleton.mp member]
    exact fun _ _ known => known
  | rest _ ih =>
    intro memo member
    rcases List.mem_append.mp member with earlier | here
    · exact ih memo earlier
    · rw [List.mem_singleton.mp here]
      exact fun _ _ known => known
  | @write passed last entry answer _ absent _ ih =>
    intro memo member
    rcases List.mem_append.mp member with earlier | here
    · exact fun _ _ known => keeps_insert absent answer _ _ (ih memo earlier _ _ known)
    · rw [List.mem_singleton.mp here]
      exact fun _ _ known => known

/-- **An entry is never changed or removed.** -/
theorem ordered (course : Course isAnswer first passed last) : passed.Pairwise Keeps := by
  induction course with
  | start => exact List.pairwise_singleton _ _
  | rest course ih =>
    refine List.pairwise_append.mpr ⟨ih, List.pairwise_singleton _ _, ?_⟩
    intro memo earlier later here
    rw [List.mem_singleton.mp here]
    exact course.keeps_last memo earlier
  | write course absent correct ih =>
    refine List.pairwise_append.mpr ⟨ih, List.pairwise_singleton _ _, ?_⟩
    intro memo earlier later here
    rw [List.mem_singleton.mp here]
    exact (Course.write course absent correct).keeps_last memo (List.mem_append_left _ earlier)

/-- An entry that can have no answer stays absent. -/
theorem stays_absent (course : Course isAnswer first passed last) {entry : MemoKey}
    (absent : first[entry]? = none) (never : ∀ answer, ¬isAnswer entry answer) :
    last[entry]? = none := by
  induction course with
  | start => exact absent
  | rest _ ih => exact ih
  | @write _ _ other written _ _ correct ih =>
    rw [Std.HashMap.getElem?_insert]
    split
    · next here =>
      obtain rfl := eq_of_beq here
      exact absurd correct (never written)
    · exact ih

end Course

end Memo

/-! ## Asking one node after the other -/

/-- The first yes ends the search. -/
theorem anyM_cons_run {Node : Type} (ask : Node → StateM Memo Bool) (node : Node)
    (nodes : List Node) (memo : Memo) :
    (node :: nodes).anyM ask memo =
      if (ask node memo).1 then (true, (ask node memo).2)
      else nodes.anyM ask (ask node memo).2 := by
  cases asked : ask node memo with
  | mk answer grown =>
    simp only [List.anyM, bind, StateT.bind, asked]
    cases answer <;> rfl

/-- The memos that a search passes through, given those that each of its questions passes
through. -/
def memosAmong {Node : Type} (ask : Node → StateM Memo Bool) (memos : Node → Memo → List Memo) :
    List Node → Memo → List Memo
  | [], memo => [memo]
  | node :: nodes, memo =>
    memos node memo ++
      if (ask node memo).1 then [] else memosAmong ask memos nodes (ask node memo).2

/-- If every question is answered as expected and takes its course, the same goes for the
question whether some answer is yes. -/
theorem anyM_spec {Node : Type} {ask : Node → StateM Memo Bool} {expected : Node → Bool}
    {memos : Node → Memo → List Memo} {written isAnswer : MemoKey → Bool → Prop}
    (weaker : ∀ entry answer, written entry answer → isAnswer entry answer) {nodes : List Node}
    (asked : ∀ node ∈ nodes, ∀ memo : Memo, memo.Sound isAnswer →
      (ask node memo).1 = expected node ∧
        Memo.Course written memo (memos node memo) (ask node memo).2)
    (memo : Memo) (sound : memo.Sound isAnswer) :
    (nodes.anyM ask memo).1 = nodes.any expected ∧
      Memo.Course written memo (memosAmong ask memos nodes memo) (nodes.anyM ask memo).2 := by
  induction nodes generalizing memo with
  | nil => exact ⟨rfl, .start⟩
  | cons node nodes ih =>
    obtain ⟨right, course⟩ := asked node List.mem_cons_self memo sound
    have soundLater := (course.mono weaker).sound sound _ course.last_mem
    obtain ⟨rightLater, courseLater⟩ :=
      ih (fun other member => asked other (List.mem_cons_of_mem _ member)) (ask node memo).2
        soundLater
    rw [anyM_cons_run, List.any_cons, ← right, memosAmong]
    cases (ask node memo).1 with
    | true =>
      refine ⟨rfl, ?_⟩
      rw [if_pos rfl, List.append_nil]
      exact course
    | false => exact ⟨rightLater, course.append courseLater⟩

/-! ## Steps of the matcher -/

/-- A step refuses a node of another kind at once, repeats an answer that the memo has,
and otherwise finds the answer among the candidates and writes it down. -/
theorem matchesAt_run {Node : Type} (view : TreeView Node) (place : SelectorPlace)
    (atom before : String) (combinator : Combinator) (left : List (Combinator × String))
    (node : Node) (memo : Memo) :
    matchesAt view place atom ((combinator, before) :: left) node memo =
      if view.kind node == atom then
        match memo[(⟨place, left.length + 1, view.key node⟩ : MemoKey)]? with
        | some answer => (answer, memo)
        | none =>
          let found := (view.related combinator node).anyM (matchesAt view place before left) memo
          (found.1, found.2.insert ⟨place, left.length + 1, view.key node⟩ found.1)
      else (false, memo) := by
  rw [matchesAt]
  cases view.kind node == atom with
  | false => rfl
  | true =>
    change (match memo[(⟨place, left.length + 1, view.key node⟩ : MemoKey)]? with
      | some answer => (pure answer : StateM Memo Bool)
      | none => do
        let answer ← (view.related combinator node).anyM (matchesAt view place before left)
        modify fun memo : Memo => memo.insert ⟨place, left.length + 1, view.key node⟩ answer
        return answer) memo = _
    cases memo[(⟨place, left.length + 1, view.key node⟩ : MemoKey)]? <;> rfl

/-- The memos that a step passes through. -/
def memosAt {Node : Type} (view : TreeView Node) (place : SelectorPlace) (atom : String) :
    (left : List (Combinator × String)) → Node → Memo → List Memo
  | [], _, memo => [memo]
  | (combinator, before) :: left, node, memo =>
    if view.kind node == atom then
      match memo[(⟨place, left.length + 1, view.key node⟩ : MemoKey)]? with
      | some _ => [memo]
      | none =>
        memosAmong (matchesAt view place before left) (memosAt view place before left)
            (view.related combinator node) memo ++
          [(matchesAt view place atom ((combinator, before) :: left) node memo).2]
    else [memo]

/-! ## Answers -/

/-- Whether an entry states, for a node of the tree and an atom with a combinator before
it, if the chain at its place matches the node with the part up to the atom. -/
structure MemoKey.IsAnswer {Node : Type} (view : TreeView Node) (member : Node → Prop)
    (matched : Chain → Node → Bool) (chains : SelectorPlace → Chain) (entry : MemoKey)
    (answer : Bool) : Prop where
  positive : 0 < entry.atom
  bound : entry.atom ≤ (chains entry.place).links.length
  about : ∃ node, member node ∧ view.key node = entry.node
  states : ∀ node, member node → view.key node = entry.node →
    matched ((chains entry.place).upTo entry.atom) node = answer

/-- The answers to a list of questions, each about the chain at a place and a node, by
one memo. -/
def answerAll {Node : Type} (view : TreeView Node) (chains : SelectorPlace → Chain)
    (questions : List (SelectorPlace × Node)) : StateM Memo (List Bool) :=
  questions.mapM fun question => matchesWith view question.1 (chains question.1) question.2

theorem answerAll_cons_run {Node : Type} (view : TreeView Node) (chains : SelectorPlace → Chain)
    (question : SelectorPlace × Node) (questions : List (SelectorPlace × Node)) (memo : Memo) :
    answerAll view chains (question :: questions) memo =
      let first := matchesWith view question.1 (chains question.1) question.2 memo
      let rest := answerAll view chains questions first.2
      (first.1 :: rest.1, rest.2) := by
  rw [answerAll, List.mapM_cons]
  rfl

/-- The memos that a list of questions passes through. -/
def memosOf {Node : Type} (view : TreeView Node) (chains : SelectorPlace → Chain) :
    List (SelectorPlace × Node) → Memo → List Memo
  | [], memo => [memo]
  | (place, node) :: questions, memo =>
    let way := (chains place).leftward
    memosAt view place way.1 way.2 node memo ++
      memosOf view chains questions (matchesWith view place (chains place) node memo).2

theorem MemoKey.IsAnswer.congr {Node : Type} {view : TreeView Node} {member : Node → Prop}
    {matched other : Chain → Node → Bool}
    (same : ∀ chain node, member node → matched chain node = other chain node)
    {chains : SelectorPlace → Chain} {entry : MemoKey} {answer : Bool}
    (correct : entry.IsAnswer view member matched chains answer) :
    entry.IsAnswer view member other chains answer := by
  refine ⟨correct.positive, correct.bound, correct.about, ?_⟩
  intro node inside key
  rw [← same _ node inside]
  exact correct.states node inside key

/-- Whether an entry states, for the members that it is about, if the chain at its place
matches with the part up to the atom.  An entry about another node may state anything. -/
def MemoKey.States {Node : Type} (view : TreeView Node) (member : Node → Prop)
    (chains : SelectorPlace → Chain) (entry : MemoKey) (answer : Bool) : Prop :=
  ∀ node, member node → view.key node = entry.node →
    ((chains entry.place).upTo entry.atom).holds view node = answer

namespace TreeView.Searchable

variable {Node : Type} {view : TreeView Node} {member : Node → Prop}
  (searchable : view.Searchable member)
include searchable

/-- **A step of the matcher answers right and only writes answers**, all of them for
atoms that are not further to the right than its own. -/
theorem matchesAt_spec (chains : SelectorPlace → Chain) (place : SelectorPlace) {atom : String}
    {left : List (Combinator × String)} (bound : left.length ≤ (chains place).links.length)
    (way : ((chains place).upTo left.length).leftward = (atom, left)) {node : Node}
    (inside : member node) (memo : Memo)
    (sound : memo.Sound (MemoKey.States view member chains)) :
    (matchesAt view place atom left node memo).1 = holdsFrom view atom left node ∧
      Memo.Course (fun entry answer => entry.atom ≤ left.length ∧
          entry.IsAnswer view member (Chain.holds view) chains answer)
        memo (memosAt view place atom left node memo)
        (matchesAt view place atom left node memo).2 := by
  induction left generalizing atom node memo with
  | nil => exact ⟨rfl, .start⟩
  | cons link left ih =>
    obtain ⟨combinator, before⟩ := link
    rw [List.length_cons] at bound way
    rw [holdsFrom, memosAt, matchesAt_run]
    cases kind : view.kind node == atom with
    | false => exact ⟨rfl, .start⟩
    | true =>
      rw [if_pos rfl, if_pos rfl, Bool.true_and]
      have states (other : Node) (otherInside : member other)
          (same : view.key other = view.key node) :
          ((chains place).upTo (left.length + 1)).holds view other =
            (view.related combinator node).any (holdsFrom view before left) := by
        rw [searchable.holds_eq _ otherInside inside same, Chain.holds, way, holdsFrom, kind,
          Bool.true_and]
      cases known : memo[(⟨place, left.length + 1, view.key node⟩ : MemoKey)]? with
      | some answer =>
        refine ⟨?_, .start⟩
        rw [← states node inside rfl]
        exact (sound _ _ known node inside rfl).symm
      | none =>
        obtain ⟨right, course⟩ := anyM_spec (fun _ _ written => written.2.states)
          (fun candidate listed => ih (Nat.le_of_succ_le bound)
            (Chain.leftward_upTo_succ bound way) (searchable.related_mem inside listed)) memo sound
        -- The entries of the candidates are for atoms further to the left, so this one is
        -- still absent when it is written.
        refine ⟨right, .write (course.mono ?_) ?_ ⟨Nat.le_refl _, ?_⟩⟩
        · exact fun entry answer written => ⟨Nat.le_succ_of_le written.1, written.2⟩
        · exact course.stays_absent known fun answer written => Nat.not_succ_le_self _ written.1
        · refine ⟨Nat.succ_pos _, bound, ⟨node, inside, rfl⟩, ?_⟩
          intro other otherInside same
          rw [states other otherInside same]
          exact right.symm

/-- A question answers right and only writes answers. -/
theorem matchesWith_spec (chains : SelectorPlace → Chain) (place : SelectorPlace) {node : Node}
    (inside : member node) (memo : Memo)
    (sound : memo.Sound (MemoKey.States view member chains)) :
    (matchesWith view place (chains place) node memo).1 = (chains place).holds view node ∧
      Memo.Course (fun entry answer => entry.IsAnswer view member (Chain.holds view) chains answer)
        memo (memosAt view place (chains place).leftward.1 (chains place).leftward.2 node memo)
        (matchesWith view place (chains place) node memo).2 := by
  have length := (chains place).length_leftward
  have way : ((chains place).upTo (chains place).leftward.2.length).leftward =
      ((chains place).leftward.1, (chains place).leftward.2) := by
    rw [length, Chain.upTo_length]
  obtain ⟨right, course⟩ :=
    searchable.matchesAt_spec chains place (Nat.le_of_eq length) way inside memo sound
  exact ⟨right, course.mono fun _ _ written => written.2⟩

/-- **The matcher finds what a chain says of a node.** -/
theorem chainMatches_eq_holds (chain : Chain) {node : Node} (inside : member node) :
    chainMatches view chain node = chain.holds view node :=
  (searchable.matchesWith_spec (fun _ => chain) ⟨0, 0⟩ inside {} (Memo.sound_empty _)).1

end TreeView.Searchable

namespace TreeView.Keyed

variable {Node : Type} {view : TreeView Node} {member : Node → Prop}
  (keyed : view.Keyed member)
include keyed

/-- In a whole tree, the matcher finds what a chain says of a node. -/
theorem chainMatches_eq_holds (chain : Chain) {node : Node} (inside : member node) :
    chainMatches view chain node = chain.holds view node :=
  keyed.searchable.chainMatches_eq_holds chain inside

theorem answerAll_spec (chains : SelectorPlace → Chain)
    {questions : List (SelectorPlace × Node)} (inside : ∀ question ∈ questions, member question.2)
    (memo : Memo) (sound : memo.Sound fun entry answer =>
      entry.IsAnswer view member (Chain.holds view) chains answer) :
    (answerAll view chains questions memo).1 =
        (questions.map fun question => (chains question.1).holds view question.2) ∧
      Memo.Course (fun entry answer => entry.IsAnswer view member (Chain.holds view) chains answer)
        memo (memosOf view chains questions memo) (answerAll view chains questions memo).2 := by
  induction questions generalizing memo with
  | nil => exact ⟨rfl, .start⟩
  | cons question questions ih =>
    obtain ⟨place, node⟩ := question
    obtain ⟨right, course⟩ :=
      keyed.searchable.matchesWith_spec chains place (inside _ List.mem_cons_self) memo
        (sound.mono fun _ _ correct => correct.states)
    obtain ⟨rightLater, courseLater⟩ :=
      ih (fun other member => inside other (List.mem_cons_of_mem _ member))
        (matchesWith view place (chains place) node memo).2 (course.sound sound _ course.last_mem)
    rw [answerAll_cons_run, List.map_cons, ← right, ← rightLater]
    exact ⟨rfl, course.append courseLater⟩

end TreeView.Keyed

/-- **A memo that is shared changes no answer.**  Every question is answered as by a
fresh memo.  Whatever memo the questions pass through, each of its entries states
whether the prefix of its chain matches at its node, and all later memos keep the entry
as it is, up to the memo at the end. -/
theorem TreeView.Keyed.answerAll_eq_fresh_and_keeps {Node : Type} {view : TreeView Node}
    {member : Node → Prop} (keyed : view.Keyed member) (chains : SelectorPlace → Chain)
    (questions : List (SelectorPlace × Node))
    (inside : ∀ question ∈ questions, member question.2) :
    (answerAll view chains questions {}).1 =
        (questions.map fun question => chainMatches view (chains question.1) question.2) ∧
      Memo.Course
        (fun entry answer => entry.IsAnswer view member (chainMatches view) chains answer)
        {} (memosOf view chains questions {}) (answerAll view chains questions {}).2 ∧
      (∀ memo ∈ memosOf view chains questions {}, memo.Sound fun entry answer =>
        entry.IsAnswer view member (chainMatches view) chains answer) ∧
      (memosOf view chains questions {}).Pairwise Memo.Keeps := by
  have same (chain : Chain) (node : Node) (inside : member node) :
      chain.holds view node = chainMatches view chain node :=
    (keyed.chainMatches_eq_holds chain inside).symm
  obtain ⟨right, found⟩ := keyed.answerAll_spec chains inside {} (Memo.sound_empty _)
  have course := found.mono fun _ _ correct => correct.congr same
  refine ⟨?_, course, course.sound (Memo.sound_empty _), course.ordered⟩
  rw [right]
  exact List.map_congr_left fun question listed => same _ _ (inside question listed)

/-- Four questions about the string of a small tree, the first three about equal chains at
two places. -/
theorem Forest.block_answers :
    let chains (place : SelectorPlace) : Chain :=
      if place.rule = 0 then ⟨"block", [(.child, "string")]⟩
      else ⟨"block", [(.twin, "comment"), (.twin, "string")]⟩
    let questions : List (SelectorPlace × Nat) :=
      [(⟨0, 0⟩, 1), (⟨0, 1⟩, 1), (⟨0, 0⟩, 1), (⟨1, 0⟩, 1)]
    (answerAll block.view chains questions {}).1 = [true, true, true, false] ∧
      Memo.Sound (answerAll block.view chains questions {}).2 (fun entry answer =>
        entry.IsAnswer block.view (· < 3) (chainMatches block.view) chains answer) := by
  intro chains questions
  have keyed := wellFormed_block.toKeyed
  have inside : ∀ question ∈ questions, question.2 < 3 := by decide
  obtain ⟨answers, course, sound, _⟩ :=
    keyed.answerAll_eq_fresh_and_keeps chains questions inside
  refine ⟨?_, sound _ course.last_mem⟩
  rw [answers, List.map_congr_left fun question listed =>
    keyed.chainMatches_eq_holds (chains question.1) (inside question listed)]
  decide

end TreeStyle
