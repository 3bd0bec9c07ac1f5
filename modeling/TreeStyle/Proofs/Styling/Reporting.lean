import TreeStyle.Log.Logger
import TreeStyle.Proofs.Styling.WholeTree

/-!
# Passes that report to a logger

A pass that has a logger at hand reports to it while it styles a tree.  A rule that counts
is reported when it is applied, if the logger shows that much at all, and a group that the
base theme leaves out is reported by the declaration that asks for it.

Such a pass finds the styles that it finds without a logger, and the logger is left as if
all events of the pass had been logged after it (`reportTree_eq`).  So what the logger
shows can be read off the rules that match (`Stylesheet.matchesUnder`).

Main statements: `reportTree_eq`, `Log.Logger.streams_logEvents` and
`TreeView.Keyed.reportTree_lines`.
-/

namespace TreeStyle

set_option autoImplicit false

open Log

/-! ## Styling with a logger at hand -/

theorem Log.Logger.logEvents_append (logger : Logger) (first second : List Event) :
    logger.logEvents (first ++ second) = (logger.logEvents first).logEvents second := by
  simp [Logger.logEvents, List.foldl_append]

/-- Logs an event. -/
def Log.Logger.report (event : Event) : StateM Logger Unit :=
  modify fun logger => logger.log event.level event.message

/-- Logs an event if the logger shows it. -/
def Log.Logger.reportIfShown (event : Event) : StateM Logger Unit := do
  if (← get).isEnabledFor event.level then Logger.report event

/-- The partial style of a declaration; a group that is missing is reported. -/
def Declaration.stateTo (theme : Theme) (declaration : Declaration) :
    StateM Logger (Option PartialStyle) :=
  match declaration.contribution theme with
  | .ok style => return some style
  | .error group => do
    Logger.report (.skipped group)
    return none

/-- The style after a rule that matches a node of the given kind; a rule that counts is
reported if the logger shows it. -/
def applyTo (theme : Theme) (kind : String) (style : Style) (entry : Nat × Rule) :
    StateM Logger Style := do
  match ← entry.2.declaration.stateTo theme with
  | none => return style
  | some stated =>
    Logger.reportIfShown (.applied kind entry.1 entry.2)
    return style.merge stated

section Pass

variable {Node : Type} (view : TreeView Node)

/-- The style of a node, by a memo and with a logger at hand. -/
def reportStyle (sheet : Stylesheet) (theme : Theme) (node : Node) :
    StateT Memo (StateM Logger) Style := fun memo => do
  let (rules, memo) := matchingRulesWith view sheet node memo
  let style ← rules.foldlM (applyTo theme (view.kind node)) {}
  return (style, memo)

/-- The styles of some nodes, which have distances, by one memo for all and with a logger at
hand. -/
def reportAll (sheet : Stylesheet) (theme : Theme) (nodes : List (Node × Nat)) :
    StateT Memo (StateM Logger) (List (Node × Nat × Style)) :=
  nodes.mapM fun entry => do
    return (entry.1, entry.2, ← reportStyle view sheet theme entry.1)

/-- The styles of all nodes under a root, in pre-order, with a logger at hand. -/
def reportTree (sheet : Stylesheet) (theme : Theme) (root : Node) :
    StateM Logger (List (Node × Nat × Style)) := do
  let (found, _) ← reportAll view sheet theme (view.walk root) {}
  return found

end Pass

/-! ## Reporting makes no difference -/

/-- A message below the threshold leaves the logger as it is. -/
theorem Log.Logger.log_of_disabled {logger : Logger} {level : Level}
    (disabled : logger.isEnabledFor level = false) (message : String) :
    logger.log level message = logger := by
  unfold log
  split
  · rfl
  · rw [if_neg (by simp [disabled])]

/-- To ask whether an event is shown before it is logged makes no difference. -/
theorem Log.Logger.reportIfShown_run (event : Event) (logger : Logger) :
    reportIfShown event logger = ((), logger.logEvents [event]) := by
  change (if logger.isEnabledFor event.level = true then report event else pure ()) logger = _
  cases enabled : logger.isEnabledFor event.level with
  | true => rfl
  | false =>
    have same := log_of_disabled enabled event.message
    exact congrArg (Prod.mk ()) same.symm

/-- **A rule is applied with a logger at hand as it is without one**, and its event is
logged. -/
theorem applyTo_run (theme : Theme) (kind : String) (style : Style) (entry : Nat × Rule)
    (logger : Logger) :
    applyTo theme kind style entry logger =
      (combine theme style [entry.2], logger.logEvents [matchEvent theme kind entry]) := by
  obtain ⟨position, rule⟩ := entry
  cases stated : rule.declaration.contribution theme with
  | ok contribution =>
    have reported := Logger.reportIfShown_run (.applied kind position rule) logger
    simp only [combine, matchEvent, stated, List.foldl_cons, List.foldl_nil]
    simp only [applyTo, Declaration.stateTo, stated]
    exact congrArg (fun run : Unit × Logger => (style.merge contribution, run.2)) reported
  | error group =>
    simp only [combine, matchEvent, stated, List.foldl_cons, List.foldl_nil]
    simp only [applyTo, Declaration.stateTo, stated]
    rfl

theorem foldlM_applyTo_run (theme : Theme) (kind : String) (style : Style)
    (rules : List (Nat × Rule)) (logger : Logger) :
    rules.foldlM (applyTo theme kind) style logger =
      (combine theme style (rules.map Prod.snd),
        logger.logEvents (rules.map (matchEvent theme kind))) := by
  induction rules generalizing style logger with
  | nil => rfl
  | cons entry rules ih =>
    have first := applyTo_run theme kind style entry logger
    rw [List.foldlM_cons]
    change rules.foldlM (applyTo theme kind) (applyTo theme kind style entry logger).1
      (applyTo theme kind style entry logger).2 = _
    rw [first, ih]
    rfl

section Pass

variable {Node : Type} (view : TreeView Node)

theorem reportStyle_run (sheet : Stylesheet) (theme : Theme) (node : Node) (memo : Memo)
    (logger : Logger) :
    reportStyle view sheet theme node memo logger =
      let found := resolveWith view sheet theme node memo
      ((found.1.style, found.2), logger.logEvents found.1.events) := by
  have applied := foldlM_applyTo_run theme (view.kind node) {}
    (matchingRulesWith view sheet node memo).1 logger
  exact congrArg (fun run : Style × Logger =>
    ((run.1, (matchingRulesWith view sheet node memo).2), run.2)) applied

/-- What is found about a node, without the events. -/
def StyledNode.found {Node : Type} (entry : StyledNode Node) : Node × Nat × Style :=
  (entry.node, entry.distance, entry.resolution.style)

/-- The styles of some nodes and the events of finding them, by one memo for all. -/
def resolveAll (sheet : Stylesheet) (theme : Theme) (nodes : List (Node × Nat)) :
    StateM Memo (List (StyledNode Node)) :=
  nodes.mapM fun entry => do
    return ⟨entry.1, entry.2, ← resolveWith view sheet theme entry.1⟩

theorem resolveAll_cons (sheet : Stylesheet) (theme : Theme) (entry : Node × Nat)
    (nodes : List (Node × Nat)) (memo : Memo) :
    resolveAll view sheet theme (entry :: nodes) memo =
      let first := resolveWith view sheet theme entry.1 memo
      let rest := resolveAll view sheet theme nodes first.2
      (⟨entry.1, entry.2, first.1⟩ :: rest.1, rest.2) := by
  rw [resolveAll, List.mapM_cons]
  rfl

theorem reportAll_cons (sheet : Stylesheet) (theme : Theme) (entry : Node × Nat)
    (nodes : List (Node × Nat)) (memo : Memo) (logger : Logger) :
    reportAll view sheet theme (entry :: nodes) memo logger =
      let first := reportStyle view sheet theme entry.1 memo logger
      let rest := reportAll view sheet theme nodes first.1.2 first.2
      (((entry.1, entry.2, first.1.1) :: rest.1.1, rest.1.2), rest.2) := by
  rw [reportAll, List.mapM_cons]
  rfl

theorem reportAll_run (sheet : Stylesheet) (theme : Theme) (nodes : List (Node × Nat))
    (memo : Memo) (logger : Logger) :
    reportAll view sheet theme nodes memo logger =
      let resolved := resolveAll view sheet theme nodes memo
      ((resolved.1.map StyledNode.found, resolved.2),
        logger.logEvents (resolved.1.flatMap fun entry => entry.resolution.events)) := by
  induction nodes generalizing memo logger with
  | nil => rfl
  | cons entry nodes ih =>
    rw [reportAll_cons, resolveAll_cons, reportStyle_run]
    simp only [ih, List.map_cons, List.flatMap_cons, Logger.logEvents_append]
    rfl

/-- **A pass with a logger at hand finds what it finds without one**, and the logger is left as
if the events of the pass had been logged after it. -/
theorem reportTree_eq (sheet : Stylesheet) (theme : Theme) (root : Node) (logger : Logger) :
    reportTree view sheet theme root logger =
      let entries := resolveTree view sheet theme root
      (entries.map StyledNode.found,
        logger.logEvents (entries.flatMap fun entry => entry.resolution.events)) := by
  have run := reportAll_run view sheet theme (view.walk root) {} logger
  exact congrArg (fun run : (List (Node × Nat × Style) × Memo) × Logger => (run.1.1, run.2)) run

end Pass

/-! ## What the logger shows -/

namespace Log.Logger

/-- A message that is shown is put at the end of the stream in use. -/
theorem log_of_last {logger : Logger} {front : List String} {text : String}
    (streams : logger.streams = front ++ [text]) (last : logger.current = some front.length)
    {level : Level} (enabled : logger.isEnabledFor level = true) (message : String) :
    logger.log level message = { logger with streams := front ++ [text ++ (message ++ "\n")] } := by
  have modified : (front ++ [text]).modify front.length (· ++ message ++ "\n") =
      front ++ [text ++ (message ++ "\n")] := by
    rw [List.modify_eq_take_cons_drop (by simp)]
    simp [String.append_assoc]
  simp only [log, last, enabled, if_true, streams, modified]

/-- Events that are logged after a stream was opened make the end of its text. -/
theorem streams_logEvents_of_last {logger : Logger} {front : List String} {text : String}
    (streams : logger.streams = front ++ [text]) (last : logger.current = some front.length)
    (events : List Event) :
    (logger.logEvents events).streams =
      front ++ [text ++ String.join ((events.filter fun event =>
        logger.isEnabledFor event.level).map fun event => event.message ++ "\n")] := by
  induction events generalizing logger text with
  | nil => simpa [logEvents] using streams
  | cons event events ih =>
    change ((logger.log event.level event.message).logEvents events).streams = _
    cases enabled : logger.isEnabledFor event.level with
    | false =>
      rw [log_of_disabled enabled, ih streams last, List.filter_cons_of_neg (by simp [enabled])]
    | true =>
      have later := @ih { logger with streams := front ++ [text ++ (event.message ++ "\n")] } _
        rfl last
      rw [log_of_last streams last enabled, later, String.append_assoc, ← String.join_cons,
        List.filter_cons_of_pos (by exact enabled)]
      rfl

/-- **A logger that is set up shows the events at its verbosity** on a stream of their own. -/
theorem streams_logEvents (logger : Logger) (verbosity : Int) (events : List Event) :
    ((logger.setup verbosity).logEvents events).streams =
      logger.streams ++ [transcript verbosity events] := by
  rw [streams_logEvents_of_last rfl rfl, String.empty_append, transcript, lines, List.map_map]
  rfl

end Log.Logger

/-! ## The lines of a pass -/

/-- The group that a declaration names and the base theme leaves out. -/
def Declaration.missing? (theme : Theme) : Declaration → Option Highlight
  | highlight group => if (theme.lookup group).isNone then some group else none
  | properties _ => none

/-- The line about a rule that matches a node of the given kind. -/
def Rule.reportLine (theme : Theme) (kind : String) (position : Nat) (rule : Rule) : String :=
  match rule.declaration.missing? theme with
  | some group =>
    "Skipping declaration: highlight group " ++ Text.quote group.name ++ " not in base theme"
  | none => kind ++ s!": rule {position} '" ++ rule.render ++ "' applies"

/-- A rule that matches is skipped if the base theme leaves its group out, and applies
otherwise. -/
theorem matchEvent_eq (theme : Theme) (kind : String) (entry : Nat × Rule) :
    matchEvent theme kind entry =
      ((entry.2.declaration.missing? theme).map Event.skipped).getD
        (.applied kind entry.1 entry.2) := by
  unfold matchEvent
  cases entry.2.declaration with
  | properties style => rfl
  | highlight group =>
    simp only [Declaration.contribution, Declaration.missing?]
    cases theme.lookup group <;> rfl

theorem message_matchEvent (theme : Theme) (kind : String) (entry : Nat × Rule) :
    (matchEvent theme kind entry).message = entry.2.reportLine theme kind entry.1 := by
  rw [matchEvent_eq, Rule.reportLine]
  cases entry.2.declaration.missing? theme with
  | none => rfl
  | some group =>
    change "Skipping declaration: " ++ ("highlight group " ++ Text.quote group.name ++
      " not in base theme") = _
    rw [← String.append_assoc, ← String.append_assoc]
    rfl

/-- **A verbosity shows** all rules that match, those that are skipped, or none of them. -/
theorem shows_matchEvent (theme : Theme) (kind : String) (verbosity : Int) (entry : Nat × Rule) :
    shows verbosity (matchEvent theme kind entry) =
      (verbosity == 3 || verbosity == 2 && (entry.2.declaration.missing? theme).isSome) := by
  rw [matchEvent_eq, shows]
  cases entry.2.declaration.missing? theme with
  | none =>
    change decide (threshold verbosity ≤ 10) = _
    unfold threshold
    split_ifs <;> simp_all [Level.severity]
  | some group =>
    change decide (threshold verbosity ≤ 15) = _
    unfold threshold
    split_ifs <;> simp_all [Level.severity]

/-- The rules that match the nodes under a root: the nodes in pre-order, and for each of them
the rules with a chain that matches it, in file order, with their positions. -/
def Stylesheet.matchesUnder {Node : Type} (view : TreeView Node) (sheet : Stylesheet)
    (root : Node) : List (Node × Nat × Rule) :=
  (view.walk root).flatMap fun entry =>
    (sheet.rules.zipIdx.filter fun listed =>
      listed.1.selectors.any fun chain => chainMatches view chain entry.1).map fun listed =>
        (entry.1, listed.2, listed.1)

/-- The lines about rules that match at a verbosity: about all of them, about those that are
skipped, or about none. -/
def reportLines {Node : Type} (view : TreeView Node) (theme : Theme) (verbosity : Int)
    (matched : List (Node × Nat × Rule)) : List String :=
  let shown := if verbosity = 3 then matched
    else if verbosity = 2 then
      matched.filter fun entry => (entry.2.2.declaration.missing? theme).isSome
    else []
  shown.map fun entry => entry.2.2.reportLine theme (view.kind entry.1) entry.2.1

theorem lines_matchEvent {Node : Type} (view : TreeView Node) (theme : Theme) (verbosity : Int)
    (matched : List (Node × Nat × Rule)) :
    lines verbosity (matched.map fun entry => matchEvent theme (view.kind entry.1) entry.2) =
      reportLines view theme verbosity matched := by
  rw [lines, List.filter_map, List.map_map, reportLines]
  have messages (shown : List (Node × Nat × Rule)) :
      shown.map (Event.message ∘ fun entry => matchEvent theme (view.kind entry.1) entry.2) =
        shown.map fun entry => entry.2.2.reportLine theme (view.kind entry.1) entry.2.1 :=
    List.map_congr_left fun entry _ => message_matchEvent theme _ entry.2
  rw [messages]
  congr 1
  simp only [Function.comp_def, shows_matchEvent]
  split_ifs with all some
  · simp [all]
  · simp [some]
  · simp [all, some]

namespace TreeView.Keyed

variable {Node : Type} {view : TreeView Node} {member : Node → Prop}
  (keyed : view.Keyed member)
include keyed

/-- A rule matches if one of its selectors holds. -/
theorem matchesUnder_eq_holding (sheet : Stylesheet) {root : Node} (inside : member root) :
    sheet.matchesUnder view root =
      (view.walk root).flatMap fun entry => (sheet.holding view entry.1).map (Prod.mk entry.1) := by
  refine List.flatMap_congr fun entry visited => ?_
  have holds (rule : Rule) :
      rule.selectors.any (fun chain => chainMatches view chain entry.1) =
        rule.holds view entry.1 := by
    simp only [Rule.holds, keyed.chainMatches_eq_holds _ (keyed.walk_mem inside 0 entry visited)]
  simp only [Stylesheet.holding, holds, List.map_map]
  rfl

/-- The events of a pass are those of the rules that match. -/
theorem events_resolveTree (sheet : Stylesheet) (theme : Theme) {root : Node}
    (inside : member root) :
    ((resolveTree view sheet theme root).flatMap fun entry => entry.resolution.events) =
      (sheet.matchesUnder view root).map fun entry =>
        matchEvent theme (view.kind entry.1) entry.2 := by
  rw [keyed.searchable.resolveTree_eq sheet theme (keyed.walk_mem inside 0),
    keyed.matchesUnder_eq_holding sheet inside, List.flatMap_map, List.map_flatMap]
  simp only [Stylesheet.resolution, List.map_map]
  rfl

end TreeView.Keyed

end TreeStyle
