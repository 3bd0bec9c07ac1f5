import TreeStyle.Stylesheet

/-!
# What is worth reporting

Operations report what they did as events.  Each event has a level and a wording,
and a verbosity chooses the levels that are shown.  Reporting is a value beside
the result of an operation, so that no result can depend on it.

Main statement: `lines_silent` (at verbosity zero no event is shown).
-/

namespace TreeStyle.Log

set_option autoImplicit false

/-! ## Levels -/

/-- How much an event matters, from least to most. -/
inductive Level where
  | debug | checks | info | changes | warning | error | critical
  deriving DecidableEq, Repr

/-- The number of a level. -/
def Level.severity : Level → Nat
  | debug => 10
  | checks => 15
  | info => 20
  | changes => 25
  | warning => 30
  | error => 40
  | critical => 50

/-- The least severity that is shown at a verbosity. -/
def threshold (verbosity : Int) : Nat :=
  if verbosity = 1 then Level.changes.severity
  else if verbosity = 2 then Level.checks.severity
  else if verbosity = 3 then Level.debug.severity
  else Level.error.severity

/-! ## Events -/

/-- Something an operation did. -/
inductive Event where
  /-- A stylesheet file is about to be read. -/
  | loading (path : String)
  /-- A source was read as so many rules with so many selectors. -/
  | parsed (rules selectors : Nat)
  /-- A cache got a stylesheet of so many rules. -/
  | swapped (rules : Nat)
  /-- A cache dropped so many styles. -/
  | invalidated (styles : Nat)
  /-- A matching rule names a highlight group that the base theme leaves out. -/
  | skipped (group : Highlight)
  /-- A matching rule contributed to the style of a node of the given kind. -/
  | applied (kind : String) (position : Nat) (rule : Rule)
  deriving DecidableEq

namespace Event

/-- The level of an event. -/
def level : Event → Level
  | loading _ => .changes
  | parsed _ _ => .checks
  | swapped _ => .changes
  | invalidated _ => .changes
  | skipped _ => .checks
  | applied _ _ _ => .debug

/-- The wording of an event. -/
def message : Event → String
  | loading path => "Loading stylesheet " ++ path
  | parsed rules selectors => s!"Parsed {rules} rules ({selectors} selectors)"
  | swapped rules => s!"Swapped stylesheet ({rules} rules)"
  | invalidated styles => s!"Invalidating {styles} cached styles"
  | skipped group => "Skipping declaration: " ++ group.missingMessage
  | applied kind position rule => kind ++ s!": rule {position} '" ++ rule.render ++ "' applies"

/-- The event of reading a stylesheet. -/
def ofParsed (sheet : Stylesheet) : Event := parsed sheet.rules.length sheet.selectorCount

end Event

/-! ## Showing events -/

/-- Whether an event is shown at a verbosity. -/
def shows (verbosity : Int) (event : Event) : Bool :=
  threshold verbosity ≤ event.level.severity

/-- The lines that events make at a verbosity. -/
def lines (verbosity : Int) (events : List Event) : List String :=
  (events.filter (shows verbosity)).map Event.message

/-- The text that events make at a verbosity, a line for each. -/
def transcript (verbosity : Int) (events : List Event) : String :=
  String.join ((lines verbosity events).map (· ++ "\n"))

/-- At verbosity zero no event is shown. -/
theorem lines_silent (events : List Event) : lines 0 events = [] := by
  have hidden : ∀ event : Event, shows 0 event = false := by
    intro event
    cases event <;> simp [shows, threshold, Event.level, Level.severity]
  simp [lines, hidden]

end TreeStyle.Log
