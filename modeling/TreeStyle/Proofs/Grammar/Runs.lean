import TreeStyle.Proofs.Source.Continuation
import TreeStyle.Proofs.Grammar.Concatenation

/-!
# Runs of a reader

A reader stands at a stage with some text left.  A run takes it over tokens of the text,
and what is read after the run is read after the rules that were closed on the way
(`Run.rules_eq`).  Reading fails where a run leads to a reader that stops
(`exists_run_of_error`).

A run does not look beyond the last token.  It stays a run when the text goes on behind
(`Run.followedBy`) and when the text breaks off there (`Run.exists_cut`), as long as the last
token stays as long as it can be.
-/

namespace TreeStyle

set_option autoImplicit false

/-! ## Spellings in longer and shorter texts -/

theorem Spelled.followedBy {text : List Char} {piece : Piece Token} (spelled : Spelled text piece)
    {more : List Char} (longest : piece.value.IsLongest (piece.rest ++ more)) :
    Spelled (text ++ more) (piece.followedBy more) := by
  obtain ⟨before, spelling, _⟩ := spelled
  unfold Piece.followedBy
  rw [List.append_assoc, List.append_assoc]
  exact .intro before spelling longest

theorem Spelled.start_ne_nil {text : List Char} {piece : Piece Token}
    (spelled : Spelled text piece) : piece.start ≠ [] := by
  obtain ⟨_, spelling, _⟩ := spelled
  exact List.append_ne_nil_of_left_ne_nil spelling.ne_nil _

theorem Spelled.text_ne_nil {text : List Char} {piece : Piece Token}
    (spelled : Spelled text piece) : text ≠ [] := by
  have started := spelled.start_ne_nil
  obtain ⟨_, _, _⟩ := spelled
  exact List.append_ne_nil_of_right_ne_nil _ started

theorem Spelled.isLongest {text : List Char} {piece : Piece Token}
    (spelled : Spelled text piece) : piece.value.IsLongest piece.rest := by
  obtain ⟨_, _, longest⟩ := spelled
  exact longest

/-- A token in front of a remainder of the text stays spelled without the remainder. -/
theorem Spelled.exists_cut {token : Token} {text start front remainder : List Char}
    (spelled : Spelled text ⟨token, start, front ++ remainder⟩) :
    ∃ before start, text = before ++ remainder ∧ Spelled before ⟨token, start, front⟩ := by
  obtain @⟨_, gap, lexeme, _, before, spelling, longest⟩ := spelled
  exact ⟨gap ++ (lexeme ++ front), lexeme ++ front, by simp,
    .intro before spelling longest.of_append⟩

/-! ## Readers -/

/-- Where reading stands: at a stage, with the text from the first token of the open rule
on, and the text that is left. -/
structure Reader where
  stage : Stage
  opened : List Char
  text : List Char

namespace Reader

/-- The reader at the start of a source. -/
def start (source : List Char) : Reader := ⟨.between, [], source⟩

/-- The rules that are left to read. -/
def rules (reader : Reader) : Except Fault (List Rule) :=
  readRules reader.stage reader.opened reader.text

/-- The reader at the next stage, behind a token that starts at `start`. -/
def goTo (reader : Reader) (next : Stage) (start rest : List Char) : Reader :=
  ⟨next, reader.stage.openedAt reader.opened start, rest⟩

/-- The reader when the text goes on behind. -/
def followedBy (reader : Reader) (more : List Char) : Reader :=
  ⟨reader.stage, reader.opened ++ more, reader.text ++ more⟩

/-- A run over tokens of the text, and the rules that are closed on the way.  Between two
rules none is open, so nothing is asked of the text of the open rule there. -/
inductive Run : Reader → List Token → List Rule → Reader → Prop where
  | stay (reader : Reader) : Run reader [] [] reader
  | proceed {reader last : Reader} {token : Token} {start rest : List Char} {next : Stage}
      {tokens : List Token} {rules : List Rule}
      (spelled : Spelled reader.text ⟨token, start, rest⟩)
      (taken : reader.stage.Takes token (.proceed next))
      (more : Run (reader.goTo next start rest) tokens rules last) :
      Run reader (token :: tokens) rules last
  | close {reader last : Reader} {token : Token} {start rest opened : List Char} {rule : Rule}
      {tokens : List Token} {rules : List Rule}
      (spelled : Spelled reader.text ⟨token, start, rest⟩)
      (taken : reader.stage.Takes token (.close rule))
      (more : Run ⟨.between, opened, rest⟩ tokens rules last) :
      Run reader (token :: tokens) (rule :: rules) last

/-- Why reading goes no further: a stray character, the end of the input inside a rule, or
a token that the stage refuses. -/
inductive Stops : Reader → Fault → Prop where
  | stray {reader : Reader} {stray : Scan.Stray}
      (read : reader.stage.readToken reader.text = .error stray) :
      Stops reader ⟨.strayCharacter stray.character, stray.start,
        reader.stage.openedAt reader.opened stray.start⟩
  | ended {reader : Reader} (inside : reader.stage ≠ .between)
      (read : reader.stage.readToken reader.text = .ok ⟨.endOfInput, [], []⟩) :
      Stops reader ⟨.unterminated, [], reader.opened⟩
  | refused {reader : Reader} {piece : Piece Token} {cause : Cause}
      (read : reader.stage.readToken reader.text = .ok piece)
      (token : piece.value ≠ .endOfInput) (refused : reader.stage.step piece.value = .error cause) :
      Stops reader ⟨cause, piece.start, reader.stage.openedAt reader.opened piece.start⟩

end Reader

/-! ## Reading along a run -/

/-- The open rule starts where it did when the text goes on behind. -/
theorem Stage.openedAt_append (stage : Stage) (opened start more : List Char) :
    stage.openedAt (opened ++ more) (start ++ more) = stage.openedAt opened start ++ more := by
  cases stage <;> rfl

/-- A stage takes a token in one way. -/
theorem Stage.Takes.unique {stage : Stage} {token : Token} {outcome other : Step}
    (taken : Takes stage token outcome) (again : Takes stage token other) : outcome = other :=
  Except.ok.inj (taken.step_eq.symm.trans again.step_eq)

/-- After a token that goes on, what is accepted is accepted at the next stage. -/
theorem Stage.Takes.accepts_cons_iff {stage next : Stage} {token : Token}
    (taken : Takes stage token (.proceed next)) (tokens : List Token) (rules : List Rule) :
    Accepts stage (token :: tokens) rules ↔ Accepts next tokens rules := by
  refine ⟨fun accepted => ?_, .proceed taken⟩
  cases accepted with
  | proceed other more =>
    cases taken.unique other
    exact more
  | close other => cases taken.unique other

/-- After a token that closes a rule, what is accepted is accepted between two rules. -/
theorem Stage.Takes.accepts_cons_cons_iff {stage : Stage} {token : Token} {rule : Rule}
    (taken : Takes stage token (.close rule)) (tokens : List Token) (rules : List Rule) :
    Accepts stage (token :: tokens) (rule :: rules) ↔ Accepts between tokens rules := by
  refine ⟨fun accepted => ?_, .close taken⟩
  cases accepted with
  | proceed other => cases taken.unique other
  | close _ more => exact more

/-- No stage goes on between two rules without closing one. -/
theorem Stage.Takes.ne_between {stage next : Stage} {token : Token}
    (taken : Takes stage token (.proceed next)) : next ≠ between := by
  cases taken with
  | keyColon _ _ _ property => cases property <;> exact Stage.noConfusion
  | _ => exact Stage.noConfusion

namespace Reader

/-- **What is read after a run is read after the rules that it closes.** -/
theorem Run.rules_eq {reader last : Reader} {tokens : List Token} {rules : List Rule}
    (run : Run reader tokens rules last) : reader.rules = last.rules.map (rules ++ ·) := by
  induction run with
  | stay reader =>
    cases reader.rules <;> rfl
  | proceed spelled taken _ ih =>
    have read := Stage.readToken_of_lexeme spelled taken.isColor
    rw [Reader.rules, readRules_of_token read taken.ne_endOfInput, taken.step_eq]
    exact ih
  | @close reader last token start rest opened rule tokens rules spelled taken _ ih =>
    have read := Stage.readToken_of_lexeme spelled taken.isColor
    have later : readRules .between [] rest = last.rules.map (rules ++ ·) := by
      rw [← ih]
      exact readRules_between_congr rfl [] opened
    rw [Reader.rules, readRules_of_token read taken.ne_endOfInput, taken.step_eq]
    simp only [later]
    cases last.rules <;> rfl

/-- A reader that stops fails. -/
theorem Stops.rules_eq {reader : Reader} {fault : Fault} (stops : reader.Stops fault) :
    reader.rules = .error fault := by
  cases stops with
  | stray read => exact readRules_of_stray read
  | ended inside read =>
    rw [Reader.rules, readRules_of_end read rfl]
    obtain ⟨stage, opened, text⟩ := reader
    cases stage with
    | between => exact absurd rfl inside
    | _ => rfl
  | refused read token refused =>
    rw [Reader.rules, readRules_of_token read token, refused]

/-- **Reading fails where a run leads to a reader that stops.** -/
theorem exists_run_of_error {reader : Reader} {fault : Fault}
    (failed : reader.rules = .error fault) :
    ∃ tokens rules last, Run reader tokens rules last ∧ last.Stops fault := by
  obtain ⟨stage, opened, text⟩ := reader
  rw [Reader.rules] at failed
  simp only at failed
  fun_induction readRules stage opened text generalizing fault with
  | case1 stage opened text stray read =>
    cases failed
    exact ⟨_, _, _, .stay _, .stray read⟩
  | case2 => cases failed
  | case3 stage opened text piece read ended _ inside =>
    cases failed
    have same := (Stage.skips_line_of_endOfInput read ended).1
    subst same
    refine ⟨_, _, _, .stay _, .ended ?_ read⟩
    rintro rfl
    exact inside read rfl HEq.rfl
  | case4 stage opened text piece read token cause stepped =>
    cases failed
    exact ⟨_, _, _, .stay _, .refused read token stepped⟩
  | case5 stage opened text piece read token next stepped ih =>
    obtain ⟨tokens, rules, last, run, stops⟩ := ih failed
    have taken := Stage.step_eq_ok_iff.mp stepped
    have spelled := Stage.exists_lexeme_of_readToken read token taken.isColor
    exact ⟨_, _, last, .proceed spelled taken run, stops⟩
  | case6 => cases failed
  | case7 stage opened text piece read token rule stepped found later ih =>
    cases failed
    obtain ⟨tokens, rules, last, run, stops⟩ := ih later
    have taken := Stage.step_eq_ok_iff.mp stepped
    have spelled := Stage.exists_lexeme_of_readToken read token taken.isColor
    exact ⟨_, _, last, .close spelled taken run, stops⟩

/-! ## Parts of a run -/

/-- **What is accepted behind a run is what is accepted at the stage it leads to.** -/
theorem Run.accepts_iff {reader last : Reader} {tokens : List Token} {rules : List Rule}
    (run : Run reader tokens rules last) (more : List Token) (others : List Rule) :
    reader.stage.Accepts (tokens ++ more) (rules ++ others) ↔ last.stage.Accepts more others := by
  induction run with
  | stay => exact Iff.rfl
  | proceed _ taken _ ih => exact (taken.accepts_cons_iff _ _).trans ih
  | close _ taken _ ih => exact (taken.accepts_cons_cons_iff _ _).trans ih

/-- A run that leads into a rule ends with a token that leads to its last stage. -/
theorem Run.exists_concat {reader last : Reader} {tokens : List Token} {rules : List Rule}
    (run : Run reader tokens rules last) (inside : last.stage ≠ .between) :
    (tokens = [] ∧ rules = [] ∧ last = reader) ∨
      ∃ before token middle, tokens = before ++ [token] ∧ Run reader before rules middle ∧
        middle.stage.Takes token (.proceed last.stage) := by
  induction run with
  | stay reader => exact .inl ⟨rfl, rfl, rfl⟩
  | @proceed reader _ token _ _ _ _ _ spelled taken _ ih =>
    rcases ih inside with ⟨rfl, rfl, rfl⟩ | ⟨before, final, middle, rfl, front, led⟩
    · exact .inr ⟨[], token, reader, rfl, .stay reader, taken⟩
    · exact .inr ⟨token :: before, final, middle, rfl, .proceed spelled taken front, led⟩
  | @close reader _ token _ _ _ _ _ _ spelled taken _ ih =>
    rcases ih inside with ⟨_, _, rfl⟩ | ⟨before, final, middle, rfl, front, led⟩
    · exact absurd rfl inside
    · exact .inr ⟨token :: before, final, middle, rfl, .close spelled taken front, led⟩

/-- A run splits behind the last rule that it closes. -/
theorem Run.exists_split {reader last : Reader} {tokens : List Token} {rules : List Rule}
    (run : Run reader tokens rules last) :
    rules = [] ∨ ∃ complete begun opened text, tokens = complete ++ begun ∧
      Run reader complete rules ⟨.between, opened, text⟩ ∧
      Run ⟨.between, opened, text⟩ begun [] last := by
  induction run with
  | stay => exact .inl rfl
  | @proceed _ _ token _ _ _ _ _ spelled taken _ ih =>
    rcases ih with none | ⟨complete, begun, opened, text, rfl, front, back⟩
    · exact .inl none
    · exact .inr ⟨token :: complete, begun, opened, text, rfl, .proceed spelled taken front, back⟩
  | @close _ _ token _ _ opened _ tokens _ spelled taken run ih =>
    rcases ih with rfl | ⟨complete, begun, opened, text, rfl, front, back⟩
    · exact .inr ⟨[token], tokens, opened, _, rfl, .close spelled taken (.stay _), run⟩
    · exact .inr ⟨token :: complete, begun, opened, text, rfl, .close spelled taken front, back⟩

/-- Inside a rule the text of the rule stays the same. -/
theorem Run.opened_eq {reader last : Reader} {tokens : List Token}
    (run : Run reader tokens [] last) (inside : reader.stage ≠ .between) :
    last.opened = reader.opened := by
  generalize none : ([] : List Rule) = rules at run
  induction run with
  | stay => rfl
  | @proceed reader _ _ _ _ next _ _ _ taken _ ih =>
    rw [ih taken.ne_between none, goTo]
    obtain ⟨stage, opened, text⟩ := reader
    cases stage with
    | between => exact absurd rfl inside
    | _ => rfl
  | close => cases none

/-! ## Runs in longer and shorter texts -/

theorem Run.text_ne_nil {reader last : Reader} {tokens : List Token} {rules : List Rule}
    (run : Run reader tokens rules last) (some : tokens ≠ []) : reader.text ≠ [] := by
  cases run with
  | stay => exact absurd rfl some
  | proceed spelled | close spelled => exact spelled.text_ne_nil

/-- The last token of a run is as long as it can be. -/
theorem Run.isLongest_getLast {reader last : Reader} {tokens : List Token} {rules : List Rule}
    (run : Run reader tokens rules last) :
    ∀ final ∈ tokens.getLast?, final.IsLongest last.text := by
  induction run with
  | stay => exact fun _ none => by cases none
  | @proceed _ _ _ _ _ _ tokens _ spelled _ run ih
  | @close _ _ _ _ _ _ _ tokens _ spelled _ run ih =>
    cases tokens with
    | nil =>
      cases run
      rintro _ ⟨⟩
      exact spelled.isLongest
    | cons next others =>
      rw [List.getLast?_cons_cons]
      exact ih

/-- A token in front of a run stays as long as it can be if the last token of all does. -/
theorem Run.isLongest_cons {reader last : Reader} {tokens : List Token} {rules : List Rule}
    (run : Run reader tokens rules last) {token : Token} (longest : token.IsLongest reader.text)
    {more : List Char}
    (stays : ∀ final ∈ (token :: tokens).getLast?, final.IsLongest (last.text ++ more)) :
    token.IsLongest (reader.text ++ more) ∧
      ∀ final ∈ tokens.getLast?, final.IsLongest (last.text ++ more) := by
  cases tokens with
  | nil =>
    cases run
    exact ⟨stays token rfl, fun _ none => by cases none⟩
  | cons next others =>
    rw [List.getLast?_cons_cons] at stays
    exact ⟨longest.append_of_ne_nil (run.text_ne_nil (List.cons_ne_nil _ _)) more, stays⟩

/-- **A run stays a run when the text goes on behind**, if the last token stays as long as
it can be. -/
theorem Run.followedBy {reader last : Reader} {tokens : List Token} {rules : List Rule}
    (run : Run reader tokens rules last) {more : List Char}
    (stays : ∀ final ∈ tokens.getLast?, final.IsLongest (last.text ++ more)) :
    Run (reader.followedBy more) tokens rules (last.followedBy more) := by
  induction run with
  | stay => exact .stay _
  | proceed spelled taken run ih =>
    obtain ⟨first, others⟩ := run.isLongest_cons spelled.isLongest stays
    have later := ih others
    rw [Reader.followedBy, Reader.goTo, ← Stage.openedAt_append] at later
    exact .proceed (spelled.followedBy first) taken later
  | close spelled taken run ih =>
    obtain ⟨first, others⟩ := run.isLongest_cons spelled.isLongest stays
    exact .close (spelled.followedBy first) taken (ih others)

theorem Run.followedBy_of_wordEnds {reader last : Reader} {tokens : List Token}
    {rules : List Rule} (run : Run reader tokens rules last) {more : List Char}
    (ends : WordEnds more) : Run (reader.followedBy more) tokens rules (last.followedBy more) :=
  run.followedBy fun final member => (run.isLongest_getLast final member).append ends

/-- What is read from a source that goes on behind is read after a run in it. -/
theorem Run.rules_start_append {source more : List Char} {last : Reader} {tokens : List Token}
    {rules : List Rule} (run : Run ((start source).followedBy more) tokens rules last) :
    (start (source ++ more)).rules = last.rules.map (rules ++ ·) := by
  rw [← run.rules_eq]
  exact readRules_between_congr rfl [] _

/-- **A run stays a run when the text breaks off behind the last token.** -/
theorem Run.exists_cut {reader last : Reader} {tokens : List Token} {rules : List Rule}
    (run : Run reader tokens rules last) {gap remainder : List Char}
    (split : last.text = gap ++ remainder) :
    ∃ front, reader.text = front ++ remainder ∧ ∀ opened, ∃ later,
      Run ⟨reader.stage, opened, front⟩ tokens rules ⟨last.stage, later, gap⟩ := by
  induction run with
  | stay reader => exact ⟨gap, split, fun opened => ⟨opened, .stay _⟩⟩
  | @proceed reader _ _ _ _ _ _ _ spelled taken _ ih =>
    obtain ⟨front, rest, runs⟩ := ih split
    simp only [goTo] at rest
    subst rest
    obtain ⟨before, start, whole, kept⟩ := spelled.exists_cut
    refine ⟨before, whole, fun opened => ?_⟩
    obtain ⟨later, run⟩ := runs (reader.stage.openedAt opened start)
    exact ⟨later, .proceed kept taken run⟩
  | close spelled taken _ ih =>
    obtain ⟨front, rest, runs⟩ := ih split
    simp only at rest
    subst rest
    obtain ⟨before, start, whole, kept⟩ := spelled.exists_cut
    refine ⟨before, whole, fun opened => ?_⟩
    obtain ⟨later, run⟩ := runs opened
    exact ⟨later, .close kept taken run⟩

/-- **A run in the front of a source** is a run in every source that starts with the front, as
long as the last token stays as long as it can be. -/
theorem Run.exists_front {source : List Char} {tokens : List Token} {rules : List Rule}
    {last : Reader} (run : Run (start source) tokens rules last) {gap remainder : List Char}
    (split : last.text = gap ++ remainder) :
    ∃ front opened, source = front ++ remainder ∧
      Run (start front) tokens rules ⟨last.stage, opened, gap⟩ ∧
      ∀ more, (∀ final ∈ tokens.getLast?, final.IsLongest (gap ++ more)) →
        (start (front ++ more)).rules =
          (readRules last.stage (opened ++ more) (gap ++ more)).map (rules ++ ·) := by
  obtain ⟨front, whole, runs⟩ := run.exists_cut split
  obtain ⟨opened, cut⟩ := runs []
  exact ⟨front, opened, whole, cut, fun more stays => (cut.followedBy stays).rules_start_append⟩

end Reader

end TreeStyle
