import TreeStyle.Proofs.Styling.Sessions

/-!
# Styles that stay until the cache is reset

A style that was got is got again, whatever happens to the trees in the meantime: nodes
may be constructed over the node and styles of other nodes may be got, which fills the
memo with answers about it.  To get it again changes nothing.  Neither does asking what
the cache keeps, or how much (`StyleCache.contains`, `StyleCache.size`).

A reset drops all of that.  From then on the session cannot be told from one whose cache is
new (`Session.renewed`), except by the count of resets, which no answer depends on.

Main statements: `Session.perform_keeps_style` (one action keeps a style),
`Session.answers_withVersion` and `Session.style_stays_until_reset`.
-/

namespace TreeStyle

set_option autoImplicit false

/-! ## One style -/

namespace StyleCache

variable {Node : Type} (view : TreeView Node)

/-- The style that is got is kept. -/
theorem style_kept_get (cache : StyleCache) (node : Node) :
    (cache.get view node).2.2.styles[view.key node]? = some (cache.get view node).1 := by
  unfold get
  split
  · next style kept => exact kept
  · exact Std.HashMap.getElem?_insert_self

/-- Getting a style keeps those that are kept. -/
theorem get_keeps_style {cache : StyleCache} {key : Int} {style : Style}
    (kept : cache.styles[key]? = some style) (node : Node) :
    (cache.get view node).2.2.styles[key]? = some style := by
  unfold get
  split
  · exact kept
  · next absent =>
    rw [Std.HashMap.getElem?_insert]
    split
    · next same =>
      rw [eq_of_beq same, kept] at absent
      cases absent
    · exact kept

end StyleCache

namespace Session

/-- **An action that is no reset keeps a style.** -/
theorem perform_keeps_style {session : Session} {key : Int} {style : Style}
    (kept : session.cache.styles[key]? = some style) {action : Action}
    (unreset : action.isReset = false) :
    (session.perform action).2.2.cache.styles[key]? = some style := by
  cases action with
  | construct kind children =>
    rw [perform_construct_cache]
    exact kept
  | get node => exact StyleCache.get_keeps_style session.forest.view kept node
  | contains node => exact kept
  | invalidate => cases unreset
  | swap => cases unreset

theorem run_keeps_style {session : Session} {key : Int} {style : Style}
    (kept : session.cache.styles[key]? = some style) {actions : List Action}
    (unreset : ∀ action ∈ actions, action.isReset = false) :
    (session.run actions).cache.styles[key]? = some style := by
  induction actions generalizing session with
  | nil => exact kept
  | cons action actions ih =>
    have next := perform_keeps_style kept (unreset action List.mem_cons_self)
    exact ih next fun other member => unreset other (List.mem_cons_of_mem _ member)

/-- A style that is kept is got, and nothing else happens. -/
theorem perform_get_of_kept {session : Session} {node : Nat} {style : Style}
    (kept : session.cache.styles[(node : Int)]? = some style) :
    session.perform (.get node) = (.style style, [], session) := by
  have cached : session.cache.get session.forest.view node = (style, [], session.cache) :=
    StyleCache.get_of_cached session.forest.view kept
  simp only [perform, cached]

/-- A cache that keeps nothing finds a style afresh. -/
theorem perform_get_of_new (session : Session) (node : Nat)
    (styles : session.cache.styles = {}) (memo : session.cache.memo = {}) :
    let resolution :=
      resolve session.forest.view session.cache.sheet session.cache.theme node
    (session.perform (.get node)).1 = .style resolution.style ∧
      (session.perform (.get node)).2.1 = resolution.events := by
  simp only [perform, StyleCache.get, styles, memo, Std.HashMap.getElem?_empty]
  exact ⟨rfl, rfl⟩

/-! ## New caches -/

/-- What a host learns from actions, one after the other, with the events of each. -/
def answers (session : Session) : List Action → List (Answer × List Log.Event)
  | [] => []
  | action :: actions =>
    let (answer, events, next) := session.perform action
    (answer, events) :: answers next actions

/-- The session with another count of resets. -/
def withVersion (session : Session) (version : Nat) : Session :=
  { session with cache := { session.cache with version } }

/-- The trees of a session under a new cache, with the settings that an action gives or
leaves in force. -/
def renewed (session : Session) (action : Action) : Session where
  forest := session.forest
  cache := {
    sheet := action.sheet?.getD session.cache.sheet
    theme := action.theme?.getD session.cache.theme }

/-- **No action looks at the count of resets.** -/
theorem perform_withVersion (session : Session) (version : Nat) (action : Action) :
    (session.withVersion version).perform action =
      ((session.perform action).1, (session.perform action).2.1,
        (session.perform action).2.2.withVersion
          (version + if action.isReset then 1 else 0)) := by
  cases action with
  | construct kind children =>
    simp only [perform, withVersion]
    cases (session.forest.construct kind children).refused <;> rfl
  | get node =>
    simp only [perform, withVersion, StyleCache.get]
    cases session.cache.styles[session.forest.view.key node]? <;> rfl
  | contains node => rfl
  | invalidate => rfl
  | swap sheet theme => rfl

theorem answers_withVersion (session : Session) (version : Nat) (actions : List Action) :
    (session.withVersion version).answers actions = session.answers actions := by
  induction actions generalizing session version with
  | nil => rfl
  | cons action actions ih =>
    simp only [answers]
    rw [perform_withVersion, ih]

/-- **A reset leaves nothing but the trees, the settings and the count of resets.** -/
theorem perform_reset (session : Session) {reset : Action} (resets : reset.isReset = true) :
    (session.perform reset).2.2 =
      (session.renewed reset).withVersion (session.cache.version + 1) := by
  cases reset with
  | construct => cases resets
  | get => cases resets
  | contains => cases resets
  | invalidate => rfl
  | swap => rfl

/-- Actions that neither reset the cache nor get a style leave it alone. -/
theorem run_cache_of_quiet {actions : List Action}
    (quiet : ∀ action ∈ actions, action.isReset = false ∧ action.asked? = none)
    (session : Session) : (session.run actions).cache = session.cache := by
  induction actions generalizing session with
  | nil => rfl
  | cons action actions ih =>
    have later := ih (fun other member => quiet other (List.mem_cons_of_mem _ member))
      (session.perform action).2.2
    obtain ⟨unreset, unasked⟩ := quiet action List.mem_cons_self
    refine later.trans ?_
    cases action with
    | construct kind children => exact session.perform_construct_cache kind children
    | get node => cases unasked
    | contains node => rfl
    | invalidate => cases unreset
    | swap => cases unreset

/-! ## Between resets and after them -/

/-- **A style stays until the cache is reset, and not longer.**  What was got is got again,
without an event and without a change to the session, after any actions but resets.  A
reset keeps no style and no answer.  All that a host learns from then on is what it would
learn from a new cache, so the style that it gets next is that of the node in its tree as
it is by then. -/
theorem style_stays_until_reset (session : Session) (node : Nat) {between : List Action}
    (unreset : ∀ action ∈ between, action.isReset = false) {reset : Action}
    (resets : reset.isReset = true) :
    let got := session.perform (.get node)
    let later := got.2.2.run between
    let cleared := (session.perform reset).2.2
    let new := session.renewed reset
    later.perform (.get node) = (got.1, [], later) ∧
      cleared.cache.styles = {} ∧ cleared.cache.memo = {} ∧
      (∀ actions, cleared.answers actions = new.answers actions) ∧
      ∀ (quiet : List Action) (other : Nat),
        (∀ action ∈ quiet, action.isReset = false ∧ action.asked? = none) →
          let grown := cleared.run quiet
          let resolution := resolve grown.forest.view new.cache.sheet new.cache.theme other
          (grown.perform (.get other)).1 = .style resolution.style ∧
            (grown.perform (.get other)).2.1 = resolution.events := by
  intro got later cleared new
  have renewal : cleared = new.withVersion (session.cache.version + 1) :=
    session.perform_reset resets
  refine ⟨?_, ?_, ?_, ?_, ?_⟩
  · have kept := session.cache.style_kept_get session.forest.view node
    exact perform_get_of_kept (run_keeps_style kept unreset)
  · rw [renewal]
    rfl
  · rw [renewal]
    rfl
  · intro actions
    rw [renewal, answers_withVersion]
  · intro quiet other quietly grown resolution
    have cache : grown.cache = (new.withVersion (session.cache.version + 1)).cache := by
      rw [← renewal]
      exact run_cache_of_quiet quietly cleared
    have found := grown.perform_get_of_new other
    rw [cache] at found
    exact found rfl rfl

/-- A string is put into a block after it was styled: before the cache is reset, and after
that. -/
theorem style_of_string_stays :
    let blue : Rule :=
      ⟨[⟨"block", [(.child, "string")]⟩], .properties ⟨{ fg := some (.named .blue) }, rfl⟩,
        by decide⟩
    let session := (start ⟨[blue]⟩ {}).run [.construct "string" []]
    let between : List Action := [.construct "block" [0], .get 1, .contains 0]
    let later := (session.perform (.get 0)).2.2.run between
    let renewed := (session.perform .invalidate).2.2.run [.construct "block" [0]]
    (∀ action ∈ between, action.isReset = false) ∧ Action.isReset .invalidate = true ∧
      (session.perform (.get 0)).1 = .style {} ∧ (later.perform (.get 0)).1 = .style {} ∧
      (renewed.perform (.get 0)).1 = .style { fg := some (.named .blue) } := by
  intro blue session between later renewed
  have unreset : ∀ action ∈ between, action.isReset = false := by
    simp [between, Action.isReset]
  have resets : Action.isReset .invalidate = true := rfl
  have first : (session.perform (.get 0)).1 = .style {} := by
    rw [(session.perform_get_of_new 0 rfl rfl).1, Forest.resolve_style]
    refine congrArg Answer.style ?_
    decide
  obtain ⟨again, -, -, -, afresh⟩ := session.style_stays_until_reset 0 unreset resets
  refine ⟨unreset, resets, first, ?_, ?_⟩
  · rw [again]
    exact first
  · refine (afresh [.construct "block" [0]] 0 (by simp [Action.isReset, Action.asked?])).1.trans ?_
    rw [Forest.resolve_style]
    refine congrArg Answer.style ?_
    decide

end Session

end TreeStyle
