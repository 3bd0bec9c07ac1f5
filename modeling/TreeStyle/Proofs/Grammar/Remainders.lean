import TreeStyle.Proofs.Grammar.Acceptance

/-!
# Remainders of a source

Reading goes on from remainders of the source, and a fault names the remainder at its
place.  So whatever is read is read at a place of the source (`readRules_verdict`), and
a fault does not change when something is put in front of the source, apart from the
position that its place has there.  Where the open rule starts is passed on and not looked
at, so it only shows in a fault of that rule.
-/

namespace TreeStyle

set_option autoImplicit false

/-! ## Scanning -/

namespace Scan

theorem skipTrivia_suffix (inComment : Bool) (text : List Char) :
    skipTrivia inComment text <:+ text := by
  induction text generalizing inComment with
  | nil => simp [skipTrivia]
  | cons character rest ih =>
    have further (inComment : Bool) : skipTrivia inComment rest <:+ character :: rest :=
      (ih inComment).trans (List.suffix_cons character rest)
    unfold skipTrivia
    split
    · exact further _
    · split
      · exact further _
      · split
        · exact further _
        · exact List.suffix_rfl

/-- A token and what follows it are remainders of the text. -/
theorem nextToken_suffix {text : List Char} {piece : Piece Token}
    (scanned : nextToken text = .ok piece) :
    piece.start <:+ text ∧ piece.rest <:+ text := by
  have skipped := skipTrivia_suffix false text
  unfold nextToken at scanned
  split at scanned
  · cases scanned
    exact ⟨List.nil_suffix, List.nil_suffix⟩
  · next character rest start =>
    rw [start] at skipped
    have rest_suffix : rest <:+ text := (List.suffix_cons character rest).trans skipped
    split at scanned
    · cases scanned
      exact ⟨skipped, rest_suffix⟩
    · split at scanned
      · cases scanned
        exact ⟨skipped, (List.dropWhile_suffix _).trans rest_suffix⟩
      · cases scanned

theorem stray_suffix {text : List Char} {stray : Stray}
    (scanned : nextToken text = .error stray) : stray.start <:+ text := by
  have skipped := skipTrivia_suffix false text
  unfold nextToken at scanned
  split at scanned
  · cases scanned
  · next character rest start =>
    rw [start] at skipped
    split at scanned
    · cases scanned
    · split at scanned
      · cases scanned
      · cases scanned
        exact skipped

theorem nextColor_suffix {text : List Char} {piece : Piece String}
    (scanned : nextColor text = some piece) :
    piece.start <:+ text ∧ piece.rest <:+ text := by
  have skipped : skipSpace text <:+ text := List.dropWhile_suffix isSpace
  unfold nextColor at scanned
  split at scanned
  · cases scanned
  · next rest start =>
    rw [start] at skipped
    have rest_suffix : rest <:+ text := (List.suffix_cons '#' rest).trans skipped
    cases scanned
    exact ⟨skipped, (List.dropWhile_suffix _).trans rest_suffix⟩
  · cases scanned
    exact ⟨skipped, (List.dropWhile_suffix _).trans skipped⟩

end Scan

/-! ## Reading -/

namespace Stage

/-- Whatever token a stage reads, it and what follows it are remainders of the text. -/
theorem readToken_suffix {stage : Stage} {text : List Char} {piece : Piece Token}
    (read : stage.readToken text = .ok piece) :
    piece.start <:+ text ∧ piece.rest <:+ text := by
  unfold readToken at read
  split at read
  · split at read
    · cases read
      exact ⟨List.nil_suffix, List.nil_suffix⟩
    · next colored scanned =>
      obtain ⟨start, rest⟩ := Scan.nextColor_suffix scanned
      split at read
      · obtain ⟨later, further⟩ := Scan.nextToken_suffix read
        exact ⟨later.trans rest, further.trans rest⟩
      · cases read
        exact ⟨start, rest⟩
  · exact Scan.nextToken_suffix read

theorem readToken_stray_suffix {stage : Stage} {text : List Char} {stray : Scan.Stray}
    (read : stage.readToken text = .error stray) : stray.start <:+ text := by
  unfold readToken at read
  split at read
  · split at read
    · cases read
    · next colored scanned =>
      split at read
      · exact (Scan.stray_suffix read).trans (Scan.nextColor_suffix scanned).2
      · cases read
  · exact Scan.stray_suffix read

end Stage

/-- What is read from a stage on, whatever the text of the open rule is: rules, a fault
behind the open rule or in one that starts in the text, or a fault in the open rule. -/
inductive Verdict (stage : Stage) (text : List Char) : Prop where
  | rules {rules : List Rule} (read : ∀ opened, readRules stage opened text = .ok rules)
  | later {fault : Fault} (start : fault.start <:+ text) (opened : fault.opened <:+ text)
      (read : ∀ opened, readRules stage opened text = .error fault)
  | inside {cause : Cause} {start : List Char} (within : stage ≠ .between)
      (place : start <:+ text)
      (read : ∀ opened, readRules stage opened text = .error ⟨cause, start, opened⟩)

/-- A fault in the open rule, or in the one that starts here. -/
theorem Verdict.of_openedAt {stage : Stage} {text start rule : List Char} {cause : Cause}
    (place : start <:+ text) (opening : rule <:+ text)
    (read : ∀ opened,
      readRules stage opened text = .error ⟨cause, start, stage.openedAt opened rule⟩) :
    Verdict stage text := by
  cases stage with
  | between => exact @Verdict.later _ _ ⟨cause, start, rule⟩ place opening read
  | _ => exact .inside Stage.noConfusion place read

/-- Between two rules no rule is open, so the open rule starts in the text. -/
theorem Verdict.suffix_of_error {text opened : List Char} (verdict : Verdict .between text)
    {fault : Fault} (failed : readRules .between opened text = .error fault) :
    fault.start <:+ text ∧ fault.opened <:+ text := by
  cases verdict with
  | rules read =>
    rw [read] at failed
    cases failed
  | later place opening read =>
    rw [read] at failed
    cases failed
    exact ⟨place, opening⟩
  | inside within => exact absurd rfl within

/-- **A fault is found at a remainder of the text**, and the rule that is open there
starts at one, too, unless it was open from the start. -/
theorem readRules_verdict (stage : Stage) (text : List Char) : Verdict stage text := by
  fun_induction readRules stage [] text with
  | case1 stage opened text stray read =>
    have place := Stage.readToken_stray_suffix read
    exact .of_openedAt place place fun _ => readRules_of_stray read
  | case2 opened text piece ended read =>
    exact .rules fun _ => readRules_of_end read ended
  | case3 stage opened text piece read ended _ inside =>
    have place := (Stage.readToken_suffix read).1
    refine @Verdict.of_openedAt _ _ _ _ .unterminated place place fun opened => ?_
    rw [readRules_of_end read ended]
    cases stage with
    | between => exact absurd HEq.rfl (inside read rfl)
    | _ => rfl
  | case4 stage opened text piece read token cause stepped =>
    have place := (Stage.readToken_suffix read).1
    refine @Verdict.of_openedAt _ _ _ _ cause place place fun opened => ?_
    rw [readRules_of_token read token, stepped]
  | case5 stage opened text piece read token next stepped ih =>
    obtain ⟨start, rest⟩ := Stage.readToken_suffix read
    have further (opened : List Char) : readRules stage opened text =
        readRules next (stage.openedAt opened piece.start) piece.rest := by
      rw [readRules_of_token read token, stepped]
    cases ih with
    | rules later => exact .rules fun opened => (further opened).trans (later _)
    | later place rule later =>
      exact .later (place.trans rest) (rule.trans rest) fun opened =>
        (further opened).trans (later _)
    | inside within place later =>
      -- The rule of the fault was open before, or it starts with this token.
      exact .of_openedAt (place.trans rest) start fun opened =>
        (further opened).trans (later _)
  | case6 stage opened text piece read token rule stepped rules later ih =>
    have whole (opened : List Char) : readRules stage opened text = .ok (rule :: rules) := by
      rw [readRules_of_token read token, stepped]
      simp only [later]
    exact .rules whole
  | case7 stage opened text piece read token rule stepped fault failed ih =>
    have rest := (Stage.readToken_suffix read).2
    -- No rule is open behind the one that is closed.
    obtain ⟨place, opening⟩ := ih.suffix_of_error failed
    refine .later (place.trans rest) (opening.trans rest) fun opened => ?_
    rw [readRules_of_token read token, stepped]
    simp only [failed]

/-- A fault is found at a remainder of the text, at whatever stage. -/
theorem readRules_suffix {stage : Stage} {opened text : List Char} {fault : Fault}
    (failed : readRules stage opened text = .error fault) : fault.start <:+ text := by
  cases readRules_verdict stage text with
  | rules read =>
    rw [read] at failed
    cases failed
  | later place _ read | inside _ place read =>
    rw [read] at failed
    cases failed
    exact place

/-- A fault of a whole source is found at a remainder of it, and so is the open rule. -/
theorem readRules_between_suffix {source : List Char} {fault : Fault}
    (failed : readRules .between [] source = .error fault) :
    fault.start <:+ source ∧ fault.opened <:+ source :=
  (readRules_verdict .between source).suffix_of_error failed

end TreeStyle
