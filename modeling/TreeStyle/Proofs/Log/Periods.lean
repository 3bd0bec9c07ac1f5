import TreeStyle.Log.Logger

/-!
# The periods of a logger

A stream is in use from the set-up that opens it until the logger is set up again or
reset.  What is logged in this period, at a level that its verbosity shows, makes the text
of the stream: each message is one line, and the lines stand in the order of the calls.

Each call is followed on its own.  A message reaches the stream in use and no other
(`Logger.perform_message`), and a stream that is out of use stays as it is
(`Logger.run_of_idle`).

Main statements: `Logger.run_of_current` and `Logger.streams_hold_periods`.
-/

namespace TreeStyle.Log

set_option autoImplicit false

/-! ## Calls -/

/-- What is done with a logger. -/
inductive Call where
  | setup (verbosity : Int)
  | reset
  | message (level : Level) (template : String) (arguments : List Value)

namespace Call

/-- Whether a call logs a message.  The other calls end the period of the stream in use. -/
def isMessage : Call → Bool
  | message _ _ _ => true
  | _ => false

/-- Whether a call opens a stream. -/
def isSetup : Call → Bool
  | setup _ => true
  | _ => false

/-- The line that a call makes if messages from a severity on are shown. -/
def line? (least : Nat) : Call → Option String
  | message level template arguments =>
    if least ≤ level.severity then (fill template arguments).map (· ++ "\n") else none
  | _ => none

end Call

/-- The text of the period that calls start with: the lines of the messages before the first
call that is none. -/
def periodText (least : Nat) (calls : List Call) : String :=
  String.join ((calls.takeWhile Call.isMessage).filterMap (Call.line? least))

theorem periodText_message {call : Call} (isMessage : call.isMessage = true) (least : Nat)
    (calls : List Call) :
    periodText least (call :: calls) = (call.line? least).getD "" ++ periodText least calls := by
  rw [periodText, List.takeWhile_cons_of_pos isMessage, List.filterMap_cons]
  cases call.line? least with
  | none => exact (String.empty_append).symm
  | some line => exact String.join_cons

theorem periodText_of_end {call : Call} (ends : call.isMessage = false) (least : Nat)
    (calls : List Call) : periodText least (call :: calls) = "" := by
  rw [periodText, List.takeWhile_cons_of_neg (by simp [ends])]
  rfl

namespace Logger

/-- The logger after a call. -/
def perform (logger : Logger) : Call → Logger
  | .setup verbosity => logger.setup verbosity
  | .reset => logger.reset
  | .message level template arguments => logger.logTemplate level template arguments

/-- The logger after a list of calls. -/
def run (logger : Logger) (calls : List Call) : Logger := calls.foldl perform logger

theorem run_cons (logger : Logger) (call : Call) (calls : List Call) :
    logger.run (call :: calls) = (logger.perform call).run calls := rfl

theorem run_append_cons (logger : Logger) (before : List Call) (call : Call) (after : List Call) :
    logger.run (before ++ call :: after) = ((logger.run before).perform call).run after := by
  rw [run, List.foldl_append]
  rfl

/-! ## One call -/

/-- The streams after a message: the one in use has its line, if it is shown. -/
def written (logger : Logger) (call : Call) : List String :=
  match logger.current, call.line? logger.threshold with
  | some place, some line => logger.streams.modify place (· ++ line)
  | _, _ => logger.streams

theorem length_written (logger : Logger) (call : Call) :
    (logger.written call).length = logger.streams.length := by
  unfold written
  split
  · exact List.length_modify _ _ _
  · rfl

/-- **A message reaches the stream in use**, and changes nothing else. -/
theorem perform_message {logger : Logger} {call : Call} (isMessage : call.isMessage = true) :
    logger.perform call = { logger with streams := logger.written call } := by
  obtain ⟨least, current, streams⟩ := logger
  cases call with
  | setup | reset => cases isMessage
  | message level template arguments =>
    simp only [perform, logTemplate, log, isEnabledFor, written, Call.line?, decide_eq_true_eq]
    cases fill template arguments with
    | none => cases current <;> simp
    | some text =>
      cases current with
      | none => rfl
      | some place =>
        by_cases shown : least ≤ level.severity
        · simp [shown, String.append_assoc]
        · simp [shown]

theorem written_message (logger : Logger) (level : Level) (template : String)
    (arguments : List Value) :
    logger.written (.message level template arguments) = logger.streams ∨
      ∃ place text, fill template arguments = some text ∧
        logger.written (.message level template arguments) =
          logger.streams.modify place (· ++ (text ++ "\n")) := by
  unfold written
  split
  · next place line _ made =>
    simp only [Call.line?] at made
    split at made
    · obtain ⟨text, filled, rfl⟩ := Option.map_eq_some_iff.mp made
      exact .inr ⟨place, text, filled, rfl⟩
    · cases made
  · exact .inl rfl

/-- A call that is no message leaves all texts as they are, and none of their streams in
use. -/
theorem perform_of_end {logger : Logger} {call : Call} (ends : call.isMessage = false)
    {place : Nat} (opened : place < logger.streams.length) :
    (logger.perform call).streams[place]? = logger.streams[place]? ∧
      (logger.perform call).current ≠ some place := by
  cases call with
  | message => cases ends
  | reset => exact ⟨rfl, Option.some_ne_none _ |>.symm⟩
  | setup verbosity =>
    refine ⟨List.getElem?_append_left opened, ?_⟩
    intro same
    exact absurd (Option.some.inj same) (by omega)

theorem length_streams_perform (logger : Logger) (call : Call) :
    (logger.perform call).streams.length =
      logger.streams.length + if call.isSetup then 1 else 0 := by
  cases call with
  | setup verbosity => simp [perform, setup, Call.isSetup]
  | reset => rfl
  | message level template arguments =>
    rw [perform_message rfl]
    exact logger.length_written _

/-! ## Runs of calls -/

theorem length_streams_run (logger : Logger) (calls : List Call) :
    (logger.run calls).streams.length = logger.streams.length + calls.countP Call.isSetup := by
  induction calls generalizing logger with
  | nil => rfl
  | cons call calls ih =>
    rw [run_cons, ih, length_streams_perform, List.countP_cons, Nat.add_assoc, Nat.add_comm]
    omega

/-- **A stream that is out of use stays as it is.** -/
theorem run_of_idle {logger : Logger} {place : Nat} (opened : place < logger.streams.length)
    (idle : logger.current ≠ some place) (calls : List Call) :
    (logger.run calls).streams[place]? = logger.streams[place]? := by
  induction calls generalizing logger with
  | nil => rfl
  | cons call calls ih =>
    have kept : (logger.perform call).streams[place]? = logger.streams[place]? ∧
        (logger.perform call).current ≠ some place := by
      by_cases isMessage : call.isMessage = true
      · rw [perform_message isMessage]
        refine ⟨?_, idle⟩
        unfold written
        split
        · next other line inUse _ =>
          have apart : other ≠ place := by
            rintro rfl
            exact idle inUse
          exact List.getElem?_modify_ne _ _ apart
        · rfl
      · exact perform_of_end (by simpa using isMessage) opened
    have longer : place < (logger.perform call).streams.length := by
      rw [length_streams_perform]
      omega
    rw [run_cons, ih longer kept.2, kept.1]

/-- **The stream in use gets the text of the period that the calls start with.** -/
theorem run_of_current {logger : Logger} {place : Nat} {text : String}
    (inUse : logger.current = some place) (found : logger.streams[place]? = some text)
    (calls : List Call) :
    (logger.run calls).streams[place]? = some (text ++ periodText logger.threshold calls) := by
  induction calls generalizing logger text with
  | nil => simpa [run, periodText] using found
  | cons call calls ih =>
    rw [run_cons]
    by_cases isMessage : call.isMessage = true
    · rw [periodText_message isMessage, ← String.append_assoc, perform_message isMessage]
      refine ih inUse ?_
      simp only [written, inUse]
      cases call.line? logger.threshold with
      | none => simpa using found
      | some line => simp [List.getElem?_modify_eq, found]
    · have ends : call.isMessage = false := by simpa using isMessage
      have opened := (List.getElem?_eq_some_iff.mp found).1
      obtain ⟨kept, idle⟩ := perform_of_end ends opened
      have longer : place < (logger.perform call).streams.length := by
        rw [length_streams_perform]
        omega
      rw [run_of_idle longer idle, kept, found, periodText_of_end ends, String.append_empty]

/-- The stream that a set-up opens gets the text of the period after it. -/
theorem run_setup (logger : Logger) (before : List Call) (verbosity : Int) (after : List Call) :
    (logger.run (before ++ .setup verbosity :: after)).streams[
        logger.streams.length + before.countP Call.isSetup]? =
      some (periodText (Log.threshold verbosity) after) := by
  have opened : ((logger.run before).setup verbosity).streams[(logger.run before).streams.length]? =
      some "" := by
    simp [setup]
  have text := run_of_current rfl opened after
  rw [String.empty_append] at text
  rw [run_append_cons, ← length_streams_run]
  exact text

/-- What has been written when a period ends stays as it is. -/
theorem run_end (logger : Logger) (before : List Call) {call : Call}
    (ends : call.isMessage = false) (after : List Call) {place : Nat}
    (opened : place < (logger.run before).streams.length) :
    (logger.run (before ++ call :: after)).streams[place]? =
      (logger.run before).streams[place]? := by
  obtain ⟨kept, idle⟩ := perform_of_end ends opened
  have longer : place < ((logger.run before).perform call).streams.length := by
    rw [length_streams_perform]
    omega
  rw [run_append_cons, run_of_idle longer idle, kept]

/-- **Each stream holds exactly its own period.**  There is one stream for each set-up.  Its
text has the lines, in order, of the messages from its set-up on to the next set-up or
reset, those whose level has at least the severity that the verbosity asks for; a template
that does not fit its arguments makes no line.  A message is written to one stream at most,
once and as one line, and what has been written when the logger is set up anew or reset
stays as it is from then on. -/
theorem streams_hold_periods (start : Logger) (calls : List Call) :
    let streams := (start.run calls).streams
    streams.length = start.streams.length + calls.countP Call.isSetup ∧
    (∀ before verbosity after, calls = before ++ .setup verbosity :: after →
      streams[start.streams.length + before.countP Call.isSetup]? =
        some (periodText
          (if verbosity = 1 then 25 else if verbosity = 2 then 15 else if verbosity = 3 then 10
            else 40) after)) ∧
    (∀ level template arguments,
      let after := (start.run (calls ++ [.message level template arguments])).streams
      after = streams ∨ ∃ place text, fill template arguments = some text ∧
        after = streams.modify place (· ++ (text ++ "\n"))) ∧
    ∀ before call after, calls = before ++ call :: after → call.isMessage = false →
      ∀ place, place < (start.run before).streams.length →
        streams[place]? = (start.run before).streams[place]? := by
  refine ⟨start.length_streams_run calls, ?_, ?_, ?_⟩
  · rintro before verbosity after rfl
    exact start.run_setup before verbosity after
  · intro level template arguments
    rw [run_append_cons, perform_message rfl]
    exact written_message _ level template arguments
  · rintro before call after rfl ends place opened
    exact start.run_end before ends after opened

/-- Messages reach the stream of their period, and after a reset none. -/
example :
    (run {} [.setup 2, .message .checks "a" [], .message .debug "b" [], .setup 1,
      .message .changes "c" [], .message .checks "d" [], .reset, .message .error "e" []]).streams =
      ["a\n", "c\n"] := by
  decide

end Logger

end TreeStyle.Log
