import TreeStyle.Proofs.Styling.Locality
import TreeStyle.Proofs.Tree.Adoption
import TreeStyle.StyleCache

/-!
# Caches over forests that grow

A cache knows nothing of the forest whose styles it keeps.  It is coherent as far as its
entries are about trees that are as they were when the styles were got
(`StyleCache.Coherent`).  Which trees these are is left open here.  For a node that is
trusted to stand in such a tree, the kept style is the style of the node, and the answers
in the memo are right.  The other entries may be wrong, and they do no harm to those, as
no question leaves the tree it is about.

Main statements: `StyleCache.Coherent.grow` (the forest grows and trust is lost where a
node is given a parent) and `StyleCache.Coherent.get`.
-/

namespace TreeStyle

set_option autoImplicit false

/-! ## Trees -/

namespace Forest

/-- Each node is its own key, so what is closed under candidates can be searched. -/
theorem searchable {forest : Forest} {member : Nat → Prop}
    (related_mem : ∀ {combinator : Combinator} {node candidate : Nat}, member node →
      candidate ∈ forest.view.related combinator node → member candidate) :
    forest.view.Searchable member := by
  refine ⟨related_mem, ?_⟩
  intro chain node other _ _ same
  rw [Int.ofNat.inj same]

/-- The tree of a node can be searched. -/
theorem Linked.searchable {forest : Forest} (linked : forest.Linked) (node : Nat) :
    forest.view.Searchable (forest.InTreeOf node) :=
  Forest.searchable linked.related_inTreeOf

/-- In a forest, a style is found without a memo. -/
theorem resolve_style (forest : Forest) (sheet : Stylesheet) (theme : Theme) (node : Nat) :
    (resolve forest.view sheet theme node).style = sheet.styleOf forest.view theme node := by
  have everywhere : forest.view.Searchable fun _ => True := searchable fun _ _ => trivial
  exact everywhere.resolveWith_style sheet theme trivial (Memo.sound_empty _)

/-- **A tree none of whose nodes is given a parent is the same afterwards.** -/
theorem Grows.coincide {before after : Forest} (grows : before.Grows after)
    (linked : before.Linked) {node : Nat}
    (unmoved : ∀ child, after.root child = after.root node → ¬before.GivenParent after child) :
    before.view.Coincide after.view (before.InTreeOf node) := by
  refine ⟨linked.related_inTreeOf, ?_, ?_, ?_, ?_⟩
  · exact fun inside => grows.kind inside.1
  · intro child inside
    change after.parent child = before.parent child
    cases up : before.parent child with
    | some above => exact grows.parent up
    | none =>
      have alone := unmoved child (grows.root_congr inside.2)
      cases later : after.parent child with
      | none => rfl
      | some above => exact absurd ⟨up, by rw [later]; rfl⟩ alone
  · exact fun inside => grows.children inside.1
  · exact fun _ up => grows.index up

end Forest

/-! ## Coherence -/

namespace StyleCache

/-- What a cache keeps after the styles of some nodes were got, as far as the trees of
nodes are trusted to be as they were. -/
structure Coherent (cache : StyleCache) (forest : Forest) (got : List Nat)
    (trusted : Nat → Prop) : Prop where
  linked : forest.Linked
  known : ∀ node ∈ got, node < forest.size
  contains : ∀ node : Nat, cache.contains forest.view node = decide (node ∈ got)
  size : cache.size = got.eraseDups.length
  /-- Trust is in whole trees. -/
  tree : ∀ {node other : Nat}, forest.root node = forest.root other → trusted node → trusted other
  style : ∀ {node : Nat} {style : Style}, cache.styles[(node : Int)]? = some style →
    trusted node → style = cache.sheet.styleOf forest.view cache.theme node
  /-- An answer is about the tree of a node whose style was got. -/
  reached : ∀ {entry : MemoKey} {answer : Bool}, cache.memo[entry]? = some answer →
    ∃ label : Nat, (label : Int) = entry.node ∧ ∃ node ∈ got, forest.InTreeOf node label
  answer : ∀ {entry : MemoKey} {answer : Bool} {label : Nat}, cache.memo[entry]? = some answer →
    (label : Int) = entry.node → trusted label →
      ((cache.sheet.chainAt entry.place).upTo entry.atom).holds forest.view label = answer

namespace Coherent

variable {cache : StyleCache} {forest : Forest} {got : List Nat} {trusted : Nat → Prop}

/-- A cache that keeps nothing is coherent. -/
theorem of_empty (linked : forest.Linked) (styles : cache.styles = {}) (memo : cache.memo = {})
    (tree : ∀ {node other : Nat}, forest.root node = forest.root other → trusted node →
      trusted other) : cache.Coherent forest [] trusted where
  linked := linked
  known := by simp
  contains := by simp [StyleCache.contains, styles]
  size := by simp [StyleCache.size, styles]
  tree := tree
  style := by simp [styles]
  reached := by simp [memo]
  answer := by simp [memo]

/-- The node of a kept style was asked for. -/
theorem mem_of_kept (coherent : cache.Coherent forest got trusted) {node : Nat} {style : Style}
    (kept : cache.styles[(node : Int)]? = some style) : node ∈ got := by
  have contains := coherent.contains node
  change cache.styles.contains (node : Int) = _ at contains
  rw [Std.HashMap.contains_eq_isSome_getElem?, kept] at contains
  exact of_decide_eq_true contains.symm

/-- **A forest may grow under a cache**, if a node whose style was got is not trusted any
more once a node of its tree is given a parent. -/
theorem grow (coherent : cache.Coherent forest got trusted) {later : Forest}
    (grows : forest.Grows later) (linked : later.Linked) {trustedLater : Nat → Prop}
    (tree : ∀ {node other : Nat}, later.root node = later.root other → trustedLater node →
      trustedLater other)
    (before : ∀ {node : Nat}, trustedLater node → trusted node)
    (unmoved : ∀ {node child : Nat}, node ∈ got → later.root child = later.root node →
      forest.GivenParent later child → ¬trustedLater node) :
    cache.Coherent later got trustedLater := by
  -- What is trusted and near to a node that was asked for is as it was.
  have coincide {label node : Nat} (trust : trustedLater label) (member : node ∈ got)
      (same : forest.root label = forest.root node) :
      forest.view.Coincide later.view (forest.InTreeOf label) := by
    apply grows.coincide coherent.linked
    intro child root given
    have sameLater := grows.root_congr same
    exact unmoved member (root.trans sameLater) given (tree sameLater trust)
  constructor
  · exact linked
  · exact fun node member => Nat.lt_of_lt_of_le (coherent.known node member) grows.size_le
  · exact coherent.contains
  · exact coherent.size
  · exact tree
  · intro node style kept trust
    have member := coherent.mem_of_kept kept
    have inside : forest.InTreeOf node node := ⟨coherent.known node member, rfl⟩
    rw [(coincide trust member rfl).styleOf_eq _ _ inside]
    exact coherent.style kept (before trust)
  · intro entry answer kept
    obtain ⟨label, key, node, member, bound, same⟩ := coherent.reached kept
    exact ⟨label, key, node, member, Nat.lt_of_lt_of_le bound grows.size_le,
      grows.root_congr same⟩
  · intro entry answer label kept key trust
    obtain ⟨other, otherKey, node, member, bound, same⟩ := coherent.reached kept
    obtain rfl : other = label := Int.ofNat.inj (otherKey.trans key.symm)
    rw [(coincide trust member same).holds_eq _ ⟨bound, rfl⟩]
    exact coherent.answer kept key (before trust)

section Get

variable (coherent : cache.Coherent forest got trusted) {node : Nat} (known : node < forest.size)
include coherent

/-- To a trusted node, the memo is sound. -/
theorem sound (trust : trusted node) :
    cache.memo.Sound (MemoKey.States forest.view (forest.InTreeOf node) cache.sheet.chainAt) :=
  fun _ _ kept _ inside key => coherent.answer kept key (coherent.tree inside.2.symm trust)

include known

/-- **A trusted node is given its style.** -/
theorem get_style (trust : trusted node) :
    (cache.get forest.view node).1 = cache.sheet.styleOf forest.view cache.theme node := by
  unfold StyleCache.get
  split
  · next style kept => exact coherent.style kept trust
  · exact (coherent.linked.searchable node).resolveWith_style cache.sheet cache.theme
      ⟨known, rfl⟩ (coherent.sound trust)

/-- Finding a style writes answers about the tree of the node alone. -/
theorem reached_of_resolved {entry : MemoKey} {answer : Bool}
    (kept : (resolveWith forest.view cache.sheet cache.theme node cache.memo).2[entry]? =
      some answer) :
    ∃ label : Nat, (label : Int) = entry.node ∧
      ∃ asked ∈ got ++ [node], forest.InTreeOf asked label := by
  by_cases about : ∃ label, forest.InTreeOf node label ∧ forest.view.key label = entry.node
  · obtain ⟨label, inside, key⟩ := about
    exact ⟨label, key, node, List.mem_append_right _ (List.mem_singleton_self node), inside⟩
  · rw [resolveWith_outside coherent.linked.related_inTreeOf cache.memo _ _ ⟨known, rfl⟩ entry
      fun label inside key => about ⟨label, inside, key⟩] at kept
    obtain ⟨label, key, asked, member, inside⟩ := coherent.reached kept
    exact ⟨label, key, asked, List.mem_append_left _ member, inside⟩

/-- Finding a style leaves the answers about trusted trees right. -/
theorem answer_of_resolved {entry : MemoKey} {answer : Bool} {label : Nat}
    (kept : (resolveWith forest.view cache.sheet cache.theme node cache.memo).2[entry]? =
      some answer)
    (key : (label : Int) = entry.node) (trust : trusted label) :
    ((cache.sheet.chainAt entry.place).upTo entry.atom).holds forest.view label = answer := by
  have inside : forest.InTreeOf node node := ⟨known, rfl⟩
  by_cases near : forest.InTreeOf node label
  · have searchable := coherent.linked.searchable node
    have sound := resolveWith_preserves (searchable.matchesWith_preserves cache.sheet inside)
      cache.theme cache.memo (coherent.sound (coherent.tree near.2 trust))
    exact sound entry answer kept label near key
  · rw [resolveWith_outside coherent.linked.related_inTreeOf cache.memo _ _ inside entry] at kept
    · exact coherent.answer kept key trust
    · intro other otherInside otherKey
      obtain rfl : other = label := Int.ofNat.inj (otherKey.trans key.symm)
      exact near otherInside

theorem known_append : ∀ other ∈ got ++ [node], other < forest.size := by
  intro other member
  rcases List.mem_append.mp member with earlier | here
  · exact coherent.known other earlier
  · rw [List.mem_singleton.mp here]
    exact known

/-- Getting a style again changes nothing. -/
theorem get_of_kept {style : Style} (kept : cache.styles[(node : Int)]? = some style) :
    cache.Coherent forest (got ++ [node]) trusted := by
  have member := coherent.mem_of_kept kept
  refine ⟨coherent.linked, coherent.known_append known, ?_, ?_, coherent.tree, coherent.style, ?_,
    coherent.answer⟩
  · intro other
    rw [coherent.contains other, decide_eq_decide, List.mem_append, List.mem_singleton]
    constructor
    · exact .inl
    · rintro (earlier | rfl)
      · exact earlier
      · exact member
  · rw [coherent.size, List.eraseDups_append]
    simp [List.removeAll, member]
  · intro entry answer found
    obtain ⟨label, key, asked, earlier, inside⟩ := coherent.reached found
    exact ⟨label, key, asked, List.mem_append_left _ earlier, inside⟩

/-- A style that was not kept is kept from then on. -/
theorem get_of_absent (absent : cache.styles[(node : Int)]? = none) :
    Coherent { cache with
        styles := cache.styles.insert (node : Int)
          (resolveWith forest.view cache.sheet cache.theme node cache.memo).1.style
        memo := (resolveWith forest.view cache.sheet cache.theme node cache.memo).2 }
      forest (got ++ [node]) trusted := by
  have inside : forest.InTreeOf node node := ⟨known, rfl⟩
  have missing : cache.styles.contains (node : Int) = false := by
    rw [Std.HashMap.contains_eq_isSome_getElem?, absent]
    rfl
  have new : node ∉ got := of_decide_eq_false ((coherent.contains node).symm.trans missing)
  refine ⟨coherent.linked, coherent.known_append known, ?_, ?_, coherent.tree, ?_,
    coherent.reached_of_resolved known, coherent.answer_of_resolved known⟩
  · intro other
    have before : cache.styles.contains (other : Int) = decide (other ∈ got) :=
      coherent.contains other
    change (cache.styles.insert (node : Int) _).contains (other : Int) = _
    rw [Std.HashMap.contains_insert, before, Bool.eq_iff_iff]
    simp only [Bool.or_eq_true, beq_iff_eq, Int.ofNat_inj, decide_eq_true_eq, List.mem_append,
      List.mem_singleton]
    rw [or_comm, eq_comm]
  · change (cache.styles.insert (node : Int) _).size = _
    rw [Std.HashMap.size_insert, if_neg (by rw [Std.HashMap.mem_iff_contains, missing]; decide)]
    change cache.size + 1 = _
    rw [coherent.size, List.eraseDups_append]
    simp [List.removeAll, new, List.eraseDups_cons]
  · intro other style found trust
    change (cache.styles.insert (node : Int) _)[(other : Int)]? = some style at found
    rw [Std.HashMap.getElem?_insert] at found
    split at found
    · next same =>
      obtain rfl := Int.ofNat.inj (eq_of_beq same)
      obtain rfl := Option.some.inj found
      exact (coherent.linked.searchable node).resolveWith_style cache.sheet cache.theme inside
        (coherent.sound trust)
    · exact coherent.style found trust

/-- **Getting a style keeps a cache coherent.** -/
theorem get : (cache.get forest.view node).2.2.Coherent forest (got ++ [node]) trusted := by
  unfold StyleCache.get
  split
  · next style kept => exact coherent.get_of_kept known kept
  · next absent => exact coherent.get_of_absent known absent

end Get

end Coherent

end StyleCache

end TreeStyle
