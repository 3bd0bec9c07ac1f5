import TreeStyle.Proofs.Styling.Coherence
import TreeStyle.Session

/-!
# What a session answers

A host may construct nodes while styles of other nodes are cached.  That does no harm as
long as it grows other trees.  Once the style of a node was got, it is too late to give a
parent to a node of the same tree, until the cache is reset: who asks about the tree may
be given what was found before (`Session.Overtaken`).  Where this is not the case, the
session answers as if it had no cache.

What a session did is read off the list of its actions: the resets, the nodes whose styles
were got since the last one (`Action.gotNodes`), and the settings that were given last.
Which nodes stand in one tree is read off the forest at the end of the run, since trees
only ever grow together.

Main statements: `Session.Settled.perform` (one action keeps the cache coherent),
`Session.Settled.run` and `Session.run_answers`.
-/

namespace TreeStyle

set_option autoImplicit false

/-! ## Actions -/

namespace Action

/-- Whether an action makes the cache drop what it keeps. -/
def isReset : Action → Bool
  | invalidate | swap _ _ => true
  | _ => false

/-- The node whose style is got. -/
def asked? : Action → Option Nat
  | get node => some node
  | _ => none

/-- The stylesheet that is put in place of the old one. -/
def sheet? : Action → Option Stylesheet
  | swap sheet _ => some sheet
  | _ => none

/-- The base theme that is put in place of the old one. -/
def theme? : Action → Option Theme
  | swap _ theme => theme
  | _ => none

/-- The actions since the cache was reset, or all if it was not. -/
def sinceReset (actions : List Action) : List Action :=
  (actions.reverse.takeWhile fun action => !action.isReset).reverse

/-- The nodes whose styles were got since then. -/
def gotNodes (actions : List Action) : List Nat := (sinceReset actions).filterMap asked?

theorem eq_get_of_asked? {action : Action} {node : Nat} (asked : action.asked? = some node) :
    action = .get node := by
  cases action <;> cases asked
  rfl

theorem sinceReset_append (actions : List Action) (action : Action) :
    sinceReset (actions ++ [action]) =
      if action.isReset then [] else sinceReset actions ++ [action] := by
  cases reset : action.isReset <;> simp [sinceReset, reset]

theorem gotNodes_append (actions : List Action) (action : Action) :
    gotNodes (actions ++ [action]) =
      if action.isReset then [] else gotNodes actions ++ action.asked?.toList := by
  rw [gotNodes, sinceReset_append]
  cases action.isReset with
  | true => rfl
  | false =>
    simp only [Bool.false_eq_true, if_false, List.filterMap_append]
    cases asked : action.asked? with
    | none => rw [List.filterMap_cons_none asked]; rfl
    | some node => rw [List.filterMap_cons_some asked]; rfl

theorem exists_append_sinceReset (actions : List Action) :
    ∃ earlier, actions = earlier ++ sinceReset actions := by
  obtain ⟨earlier, split⟩ := List.reverse_suffix.mpr
    (List.takeWhile_prefix (l := actions.reverse) fun action : Action => !action.isReset)
  rw [List.reverse_reverse] at split
  exact ⟨earlier, split.symm⟩

theorem isReset_of_mem_sinceReset {actions : List Action} {action : Action}
    (member : action ∈ sinceReset actions) : action.isReset = false := by
  have taken := List.all_takeWhile (l := actions.reverse) (p := fun action => !action.isReset)
  have holds := List.all_eq_true.mp taken action (List.mem_reverse.mp member)
  simpa using holds

/-- Since its style was got, the cache was not reset. -/
theorem exists_of_mem_gotNodes {actions : List Action} {node : Nat}
    (member : node ∈ gotNodes actions) :
    ∃ before between, actions = before ++ .get node :: between ∧
      ∀ other ∈ between, other.isReset = false := by
  obtain ⟨action, recent, asked⟩ := List.mem_filterMap.mp member
  obtain rfl := eq_get_of_asked? asked
  obtain ⟨earlier, split⟩ := exists_append_sinceReset actions
  obtain ⟨first, between, recentSplit⟩ := List.append_of_mem recent
  refine ⟨earlier ++ first, between, ?_, ?_⟩
  · rw [List.append_assoc, ← recentSplit]
    exact split
  · intro other further
    apply isReset_of_mem_sinceReset
    rw [recentSplit]
    exact List.mem_append_right _ (List.mem_cons_of_mem _ further)

end Action

/-! ## One action -/

theorem StyleCache.get_settings {Node : Type} (view : TreeView Node) (cache : StyleCache)
    (node : Node) :
    (cache.get view node).2.2.sheet = cache.sheet ∧ (cache.get view node).2.2.theme = cache.theme ∧
      (cache.get view node).2.2.version = cache.version := by
  unfold StyleCache.get
  split <;> exact ⟨rfl, rfl, rfl⟩

namespace Session

/-- A session with nothing in it but a stylesheet and a base theme. -/
def start (sheet : Stylesheet) (theme : Theme) : Session where
  forest := .empty
  cache := { sheet, theme }

theorem run_append_singleton (session : Session) (actions : List Action) (action : Action) :
    session.run (actions ++ [action]) = ((session.run actions).perform action).2.2 := by
  rw [run_append]
  rfl

theorem perform_construct_forest (session : Session) (kind : String) (children : List Nat) :
    (session.perform (.construct kind children)).2.2.forest =
      (session.forest.construct kind children).forest := by
  unfold perform
  simp only
  split <;> rfl

theorem grows_perform (session : Session) (action : Action) :
    session.forest.Grows (session.perform action).2.2.forest := by
  cases action with
  | construct kind children =>
    rw [perform_construct_forest]
    exact session.forest.grows_construct kind children 0 0
  | get => exact .refl session.forest
  | contains => exact .refl session.forest
  | invalidate => exact .refl session.forest
  | swap => exact .refl session.forest

theorem linked_perform {session : Session} (linked : session.forest.Linked) (action : Action) :
    (session.perform action).2.2.forest.Linked := by
  cases action with
  | construct kind children =>
    rw [perform_construct_forest]
    exact linked.construct
  | get => exact linked
  | contains => exact linked
  | invalidate => exact linked
  | swap => exact linked

/-- Swaps give settings, resets count, and nothing else touches either. -/
theorem perform_settings (session : Session) (action : Action) :
    (session.perform action).2.2.cache.sheet = action.sheet?.getD session.cache.sheet ∧
      (session.perform action).2.2.cache.theme = action.theme?.getD session.cache.theme ∧
      (session.perform action).2.2.cache.version =
        session.cache.version + if action.isReset then 1 else 0 := by
  cases action with
  | construct kind children =>
    rw [perform_construct_cache]
    exact ⟨rfl, rfl, rfl⟩
  | get node => exact session.cache.get_settings session.forest.view node
  | contains => exact ⟨rfl, rfl, rfl⟩
  | invalidate => exact ⟨rfl, rfl, rfl⟩
  | swap => exact ⟨rfl, rfl, rfl⟩

/-! ## Settings -/

/-- The last value that an action gives is in force, or else the one at the beginning. -/
theorem run_last {Value : Type} (setting : Session → Value) (given : Action → Option Value)
    (performed : ∀ session action,
      setting (session.perform action).2.2 = (given action).getD (setting session))
    (session : Session) (actions : List Action) :
    setting (session.run actions) = (actions.filterMap given).getLast?.getD (setting session) := by
  induction actions generalizing session with
  | nil => rfl
  | cons action actions ih =>
    change setting ((session.perform action).2.2.run actions) = _
    rw [ih, performed]
    cases stated : given action with
    | none => rw [List.filterMap_cons_none stated, Option.getD_none]
    | some value =>
      rw [List.filterMap_cons_some stated, List.getLast?_cons, Option.getD_some, Option.getD_some]

/-- Every reset counts. -/
theorem run_version (session : Session) (actions : List Action) :
    (session.run actions).cache.version =
      session.cache.version + actions.countP Action.isReset := by
  induction actions generalizing session with
  | nil => rfl
  | cons action actions ih =>
    change ((session.perform action).2.2.run actions).cache.version = _
    rw [ih, (perform_settings ..).2.2, List.countP_cons, Nat.add_assoc,
      Nat.add_comm (List.countP ..)]

/-! ## Trees that grow too late -/

/-- Whether a node was given a parent, in what is now the tree of the given one, after the
style of a node of that tree was got, and the cache has not been reset since. -/
def Overtaken (first : Session) (actions : List Action) (node : Nat) : Prop :=
  ∃ before got between action later child,
    actions = before ++ .get got :: between ++ action :: later ∧
      (∀ other ∈ between ++ action :: later, other.isReset = false) ∧
      (first.run (before ++ .get got :: between)).forest.GivenParent
        (first.run (before ++ .get got :: between ++ [action])).forest child ∧
      (first.run actions).forest.root got = (first.run actions).forest.root node ∧
      (first.run actions).forest.root child = (first.run actions).forest.root node

namespace Overtaken

variable {first : Session} {actions : List Action} {action : Action} {node : Nat}

theorem of_tree {other : Nat} (overtaken : first.Overtaken actions node)
    (same : (first.run actions).forest.root node = (first.run actions).forest.root other) :
    first.Overtaken actions other := by
  obtain ⟨before, got, between, action, later, child, split, unreset, given, near, moved⟩ :=
    overtaken
  exact ⟨before, got, between, action, later, child, split, unreset, given, near.trans same,
    moved.trans same⟩

/-- It stays too late until the cache is reset. -/
theorem append (overtaken : first.Overtaken actions node) (unreset : action.isReset = false) :
    first.Overtaken (actions ++ [action]) node := by
  have grows := (first.run actions).grows_perform action
  rw [← run_append_singleton] at grows
  obtain ⟨before, got, between, adopting, later, child, rfl, unresetBefore, given, near, moved⟩ :=
    overtaken
  refine ⟨before, got, between, adopting, later ++ [action], child, ?_, ?_, given,
    grows.root_congr near, grows.root_congr moved⟩
  · simp
  · intro other member
    rw [← List.cons_append, ← List.append_assoc, List.mem_append, List.mem_singleton] at member
    rcases member with earlier | rfl
    · exact unresetBefore other earlier
    · exact unreset

/-- From the last action on, it is too late. -/
theorem of_givenParent {got child : Nat} (member : got ∈ Action.gotNodes actions)
    (unreset : action.isReset = false)
    (given : (first.run actions).forest.GivenParent (first.run (actions ++ [action])).forest child)
    (near : (first.run (actions ++ [action])).forest.root child =
      (first.run (actions ++ [action])).forest.root got) :
    first.Overtaken (actions ++ [action]) got := by
  obtain ⟨before, between, rfl, unresetBefore⟩ := Action.exists_of_mem_gotNodes member
  refine ⟨before, got, between, action, [], child, rfl, ?_, given, rfl, near⟩
  intro other member
  rcases List.mem_append.mp member with earlier | here
  · exact unresetBefore other earlier
  · rw [List.mem_singleton.mp here]
    exact unreset

end Overtaken

/-! ## Runs -/

/-- Whether the cache is coherent after a run, except for trees that grew too late. -/
def Settled (first : Session) (actions : List Action) : Prop :=
  (first.run actions).cache.Coherent (first.run actions).forest (Action.gotNodes actions)
    fun node => ¬first.Overtaken actions node

section Perform

variable {first : Session} {actions : List Action} (settled : first.Settled actions)
  {action : Action}
include settled

theorem Settled.linked_append : (first.run (actions ++ [action])).forest.Linked := by
  rw [run_append_singleton]
  exact linked_perform settled.linked action

/-- A cache that was reset keeps nothing that could be wrong. -/
theorem Settled.reset (resets : action.isReset = true) : first.Settled (actions ++ [action]) := by
  rw [Settled, Action.gotNodes_append, resets, if_pos rfl]
  have linked : (first.run (actions ++ [action])).forest.Linked := settled.linked_append
  refine .of_empty linked ?_ ?_ fun same trust overtaken => trust (overtaken.of_tree same.symm)
  all_goals
    rw [run_append_singleton]
    cases action with
    | invalidate => rfl
    | swap => rfl
    | construct => cases resets
    | get => cases resets
    | contains => cases resets

/-- What is kept stays right while the forest grows, except for trees that grow too late. -/
theorem Settled.grow (unreset : action.isReset = false) :
    (first.run actions).cache.Coherent (first.run (actions ++ [action])).forest
      (Action.gotNodes actions) fun node => ¬first.Overtaken (actions ++ [action]) node := by
  have grows := (first.run actions).grows_perform action
  rw [← run_append_singleton] at grows
  refine StyleCache.Coherent.grow settled grows settled.linked_append ?_ ?_ ?_
  · exact fun same trust overtaken => trust (overtaken.of_tree same.symm)
  · exact fun trust overtaken => trust (overtaken.append unreset)
  · exact fun member near given trust => trust (.of_givenParent member unreset given near)

/-- **A further action keeps the cache coherent**, if it asks about a node that exists. -/
theorem Settled.perform (known : ∀ node ∈ action.asked?, node < (first.run actions).forest.size) :
    first.Settled (actions ++ [action]) := by
  cases resets : action.isReset with
  | true => exact settled.reset resets
  | false =>
    have grown := settled.grow resets
    rw [Settled, Action.gotNodes_append, resets, if_neg Bool.false_ne_true]
    rw [run_append_singleton] at grown ⊢
    cases action with
    | invalidate => cases resets
    | swap => cases resets
    | construct kind children =>
      rw [perform_construct_cache]
      simpa [Action.asked?] using grown
    | contains node =>
      rw [perform_contains] at grown ⊢
      simpa [Action.asked?] using grown
    | get node => exact grown.get (known node rfl)

end Perform

/-- Whether a list of actions only asks about nodes that exist by then. -/
def AsksKnown (first : Session) (actions : List Action) : Prop :=
  ∀ before node later, actions = before ++ .get node :: later →
    node < (first.run before).forest.size

/-- **A run keeps the cache coherent.** -/
theorem Settled.run {first : Session} {earlier actions : List Action}
    (settled : first.Settled earlier) (known : first.AsksKnown (earlier ++ actions)) :
    first.Settled (earlier ++ actions) := by
  induction actions generalizing earlier with
  | nil =>
    rw [List.append_nil]
    exact settled
  | cons action actions ih =>
    rw [List.append_cons] at known ⊢
    refine ih (settled.perform ?_) known
    intro node asked
    obtain rfl := Action.eq_get_of_asked? asked
    exact known earlier node actions (List.append_cons ..).symm

theorem settled_start (sheet : Stylesheet) (theme : Theme) : (start sheet theme).Settled [] :=
  .of_empty Forest.linked_empty rfl rfl fun same trust overtaken =>
    trust (overtaken.of_tree same.symm)

/-- **A session answers as if it had no cache, where no tree grew too late.**  It contains
the styles that were got since the last reset, each counted once.  Its version is the
number of resets, its stylesheet is the one of the last swap, and its base theme is the
last one that a swap gave. -/
theorem run_answers (sheet : Stylesheet) (theme : Theme) (actions : List Action)
    (known : (start sheet theme).AsksKnown actions) :
    let session := (start sheet theme).run actions
    let current := (actions.filterMap Action.sheet?).getLast?.getD sheet
    let base := (actions.filterMap Action.theme?).getLast?.getD theme
    (∀ node, node < session.forest.size → ¬(start sheet theme).Overtaken actions node →
        (session.perform (.get node)).1 =
          .style (resolve session.forest.view current base node).style) ∧
      (∀ node, (session.perform (.contains node)).1 =
        .contained (decide (node ∈ Action.gotNodes actions))) ∧
      session.cache.size = (Action.gotNodes actions).eraseDups.length ∧
      session.cache.version = actions.countP Action.isReset ∧
      session.cache.sheet = current ∧ session.cache.theme = base := by
  intro session current base
  have settled : (start sheet theme).Settled actions := (settled_start sheet theme).run known
  have sheetInForce : session.cache.sheet = current :=
    run_last (fun session => session.cache.sheet) Action.sheet?
      (fun session action => (session.perform_settings action).1) _ actions
  have themeInForce : session.cache.theme = base :=
    run_last (fun session => session.cache.theme) Action.theme?
      (fun session action => (session.perform_settings action).2.1) _ actions
  refine ⟨?_, ?_, settled.size, ?_, sheetInForce, themeInForce⟩
  · intro node bound trust
    have got : (session.cache.get session.forest.view node).1 =
        session.cache.sheet.styleOf session.forest.view session.cache.theme node :=
      settled.get_style bound trust
    rw [sheetInForce, themeInForce, ← Forest.resolve_style] at got
    exact congrArg Answer.style got
  · intro node
    exact congrArg Answer.contained (settled.contains node)
  · exact (run_version ..).trans (Nat.zero_add _)

/-- A session in which a string is styled before a tree with a comment grows.  The last
construction fails, as the string has a parent, after the comment was adopted. -/
theorem run_answers_of_block :
    let blue : Rule :=
      ⟨[⟨"block", [(.child, "string")]⟩], .properties ⟨{ fg := some (.named .blue) }, rfl⟩,
        by decide⟩
    let actions : List Action :=
      [.swap ⟨[blue]⟩ none, .construct "string" [], .construct "block" [0],
        .construct "comment" [], .get 0, .construct "block" [2, 0]]
    let session := (start {} {}).run actions
    (start {} {}).AsksKnown actions ∧ 0 < session.forest.size ∧
      ¬(start {} {}).Overtaken actions 0 ∧
      (session.perform (.get 0)).1 = .style { fg := some (.named .blue) } ∧
      (session.perform (.contains 0)).1 = .contained true ∧
      (session.perform (.contains 2)).1 = .contained false ∧
      session.cache.size = 1 ∧ session.cache.version = 1 := by
  intro blue actions session
  have split_of {before later : List Action} {node : Nat}
      (split : actions = before ++ .get node :: later) :
      before = [.swap ⟨[blue]⟩ none, .construct "string" [], .construct "block" [0],
        .construct "comment" []] ∧ node = 0 ∧ later = [.construct "block" [2, 0]] := by
    rcases before with _ | ⟨_, _ | ⟨_, _ | ⟨_, _ | ⟨_, _ | ⟨_, _ | ⟨_, before⟩⟩⟩⟩⟩⟩ <;>
      simp [actions] at split
    obtain ⟨rfl, rfl, rfl, rfl, rfl, rfl⟩ := split
    exact ⟨rfl, rfl, rfl⟩
  have known : (start {} {}).AsksKnown actions := by
    intro before node later split
    obtain ⟨rfl, rfl, rfl⟩ := split_of split
    decide
  have bound : 0 < session.forest.size := by decide
  have trust : ¬(start {} {}).Overtaken actions 0 := by
    rintro ⟨before, got, between, action, later, child, split, -, ⟨root, owned⟩, -, moved⟩
    rw [List.append_assoc, List.cons_append] at split
    obtain ⟨rfl, rfl, rest⟩ := split_of split
    rcases between with _ | ⟨_, between⟩ <;> simp at rest
    obtain ⟨rfl, rfl⟩ := rest
    simp only [List.nil_append, List.cons_append] at root owned
    change (session.forest.parent child).isSome at owned
    -- Only the comment is given a parent, and it does not stand in the tree of the string.
    obtain ⟨above, up⟩ := Option.isSome_iff_exists.mp owned
    have size : session.forest.size = 4 := by decide
    have less := Nat.lt_of_lt_of_eq (Forest.lt_parent _ up).2 size
    have adopted : ∀ child < 4, (session.forest.parent child).isSome → child = 0 ∨ child = 2 := by
      decide
    rcases adopted child less owned with rfl | rfl
    · cases root
    · have links : session.forest.parent 0 = some 1 ∧ session.forest.parent 1 = none ∧
          session.forest.parent 2 = some 3 ∧ session.forest.parent 3 = none := by decide
      have same : session.forest.root 2 = session.forest.root 0 := moved
      rw [Forest.root_of_parent links.1, Forest.root_of_root links.2.1,
        Forest.root_of_parent links.2.2.1, Forest.root_of_root links.2.2.2] at same
      cases same
  obtain ⟨style, contains, size, version, -, -⟩ := run_answers {} {} actions known
  refine ⟨known, bound, trust, ?_, ?_, ?_, ?_, ?_⟩
  · rw [style 0 bound trust, Forest.resolve_style]
    refine congrArg Answer.style ?_
    decide
  · rw [contains 0]
    rfl
  · rw [contains 2]
    rfl
  · rw [size]
    rfl
  · rw [version]
    rfl

/-- A tree that grows too late is answered as it was, up to the next reset. -/
example :
    let blue : Rule :=
      ⟨[⟨"block", [(.child, "string")]⟩], .properties ⟨{ fg := some (.named .blue) }, rfl⟩,
        by decide⟩
    let late := (start ⟨[blue]⟩ {}).run [.construct "string" [], .get 0, .construct "block" [0]]
    (late.perform (.get 0)).1 = .style {} ∧
      ((late.perform .invalidate).2.2.perform (.get 0)).1 =
        .style { fg := some (.named .blue) } := by
  cbv

end Session

end TreeStyle
