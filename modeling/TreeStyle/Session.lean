import TreeStyle.StyleCache
import TreeStyle.Tree.Forest

/-!
# Sessions

A session is the working life of a cache over trees in memory: nodes are
constructed, styles are got, and the cache is invalidated or swapped, in any
order.  Nothing keeps a host from changing a tree while its styles are cached;
what it then gets is what this module makes precise.

Main statements: `perform_contains` (asking changes nothing) and
`perform_construct_cache` (constructing nodes leaves the cache alone).
-/

namespace TreeStyle

set_option autoImplicit false

/-- What a host can do in a session. -/
inductive Action where
  | construct (kind : String) (children : List Nat)
  | get (node : Nat)
  | contains (node : Nat)
  | invalidate
  | swap (sheet : Stylesheet) (theme : Option Theme)

/-- What a host learns from an action. -/
inductive Answer where
  /-- The label of the node that was constructed. -/
  | constructed (label : Nat)
  /-- The child that refused its second parent. -/
  | refused (child : ForestNode)
  | style (style : Style)
  | contained (answer : Bool)
  | done

/-- Trees in memory and a cache of their styles. -/
structure Session where
  forest : Forest := {}
  cache : StyleCache

namespace Session

/-- An action: what the host learns, the events, and the session after it. -/
def perform (session : Session) : Action → Answer × List Log.Event × Session
  | .construct kind children =>
    let built := session.forest.construct kind children
    let after := { session with forest := built.forest }
    match built.refused with
    | none => (.constructed built.label, [], after)
    | some child => (.refused child, [], after)
  | .get node =>
    let (style, events, cache) := session.cache.get session.forest.view node
    (.style style, events, { session with cache })
  | .contains node => (.contained (session.cache.contains session.forest.view node), [], session)
  | .invalidate =>
    let (cache, events) := session.cache.invalidate
    (.done, events, { session with cache })
  | .swap sheet theme =>
    let (cache, events) := session.cache.swap sheet theme
    (.done, events, { session with cache })

/-- The session after a list of actions. -/
def run (session : Session) (actions : List Action) : Session :=
  actions.foldl (fun reached action => (reached.perform action).2.2) session

/-- Asking whether a style is kept changes nothing. -/
theorem perform_contains (session : Session) (node : Nat) :
    (session.perform (.contains node)).2.2 = session := rfl

/-- Constructing a node leaves the cache alone. -/
theorem perform_construct_cache (session : Session) (kind : String) (children : List Nat) :
    (session.perform (.construct kind children)).2.2.cache = session.cache := by
  unfold perform
  simp only
  split <;> rfl

theorem run_append (session : Session) (first second : List Action) :
    session.run (first ++ second) = (session.run first).run second := by
  simp [run, List.foldl_append]

end Session

end TreeStyle
