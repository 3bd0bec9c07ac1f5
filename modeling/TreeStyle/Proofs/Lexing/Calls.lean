import Mathlib.Data.List.Basic
import Mathlib.Data.List.Induction
import TreeStyle.Proofs.Grammar.Remainders
import TreeStyle.Proofs.Lexing.Tiling

/-!
# Calls of a lexer

A lexer is called in three ways, in any order.  Looking at a token already moves it forward,
and so does a scan that finds none, so a lexer is in a state that depends on how it was
called, and not only on what it has handed out.

Still, looking ahead shows in no other answer.  A lexer that has looked ahead and one that has
not answer the next call alike, and are in one state behind it, unless the call asks for a
colour (`Lexer.perform_of_peek`).  That call is refused exactly while a token is pending,
and then it changes nothing.

Main statements: `Lexer.pending_behind_iff`, `Lexer.run_without_peek` and
`Lexer.lookahead_transparent`.
-/

namespace TreeStyle

set_option autoImplicit false

namespace Lexer

/-- A way of calling a lexer. -/
inductive Call where
  | peek | next | color
  deriving DecidableEq

/-- The answer to a call, and the lexer behind it. -/
def perform (lexer : Lexer) : Call → Except LexerError (Piece Token) × Lexer
  | .peek => lexer.peek
  | .next => lexer.next
  | .color => lexer.nextColor

theorem perform_peek (lexer : Lexer) : lexer.perform .peek = lexer.peek := rfl

theorem perform_next (lexer : Lexer) : lexer.perform .next = lexer.next := rfl

theorem perform_color (lexer : Lexer) : lexer.perform .color = lexer.nextColor := rfl

/-- The answers to calls, and the lexer behind them. -/
def run (lexer : Lexer) : List Call → List (Except LexerError (Piece Token)) × Lexer
  | [] => ([], lexer)
  | call :: calls =>
    let (answer, after) := lexer.perform call
    let (answers, last) := after.run calls
    (answer :: answers, last)

/-- The lexer behind some calls. -/
def behind (lexer : Lexer) (calls : List Call) : Lexer := (lexer.run calls).2

theorem run_cons (lexer : Lexer) (call : Call) (calls : List Call) :
    lexer.run (call :: calls) =
      ((lexer.perform call).1 :: ((lexer.perform call).2.run calls).1,
        (lexer.perform call).2.behind calls) := rfl

theorem run_append (lexer : Lexer) (first second : List Call) :
    lexer.run (first ++ second) =
      ((lexer.run first).1 ++ ((lexer.behind first).run second).1,
        (lexer.behind first).behind second) := by
  induction first generalizing lexer with
  | nil => rfl
  | cons call first ih =>
    rw [List.cons_append, run_cons, run_cons, behind, ih]
    rfl

theorem length_run (lexer : Lexer) (calls : List Call) :
    (lexer.run calls).1.length = calls.length := by
  induction calls generalizing lexer with
  | nil => rfl
  | cons call calls ih =>
    rw [run_cons, List.length_cons, List.length_cons, ih]

theorem behind_append_singleton (lexer : Lexer) (calls : List Call) (call : Call) :
    lexer.behind (calls ++ [call]) = ((lexer.behind calls).perform call).2 := by
  rw [behind, run_append]
  rfl

/-! ## Moving forward -/

/-- **A call goes forward in the source**, or stays where it is. -/
theorem perform_suffix (lexer : Lexer) (call : Call) :
    (lexer.perform call).2.source = lexer.source ∧
      (lexer.perform call).2.rest <:+ lexer.rest := by
  have peeked : lexer.peek.2.source = lexer.source ∧ lexer.peek.2.rest <:+ lexer.rest := by
    unfold peek
    cases lexer.pending with
    | some piece => exact ⟨rfl, List.suffix_rfl⟩
    | none =>
      cases scanned : Scan.nextToken lexer.rest with
      | ok piece => exact ⟨rfl, (Scan.nextToken_suffix scanned).2⟩
      | error stray => exact ⟨rfl, Scan.stray_suffix scanned⟩
  cases call with
  | peek => exact peeked
  | next =>
    have same : lexer.next.2.source = lexer.peek.2.source ∧
        lexer.next.2.rest = lexer.peek.2.rest := by
      unfold next
      split <;> next looked => exact ⟨by rw [looked], by rw [looked]⟩
    rw [perform_next, same.1, same.2]
    exact peeked
  | color =>
    rw [perform_color, nextColor]
    cases lexer.pending with
    | some piece => exact ⟨rfl, List.suffix_rfl⟩
    | none =>
      cases scanned : Scan.nextColor lexer.rest with
      | none => exact ⟨rfl, List.nil_suffix⟩
      | some piece => exact ⟨rfl, (Scan.nextColor_suffix scanned).2⟩

/-- The position of a lexer never decreases. -/
theorem pos_le_perform (lexer : Lexer) (call : Call) : lexer.pos ≤ (lexer.perform call).2.pos := by
  obtain ⟨source, rest⟩ := lexer.perform_suffix call
  rw [pos, pos, source]
  exact Nat.sub_le_sub_left rest.length_le _

theorem behind_suffix (lexer : Lexer) (calls : List Call) :
    (lexer.behind calls).source = lexer.source ∧ (lexer.behind calls).rest <:+ lexer.rest := by
  induction calls using List.reverseRecOn with
  | nil => exact ⟨rfl, List.suffix_rfl⟩
  | append_singleton calls call ih =>
    obtain ⟨source, rest⟩ := (lexer.behind calls).perform_suffix call
    rw [behind_append_singleton]
    exact ⟨source.trans ih.1, rest.trans ih.2⟩

/-! ## Pending tokens -/

theorem peek_of_pending {lexer : Lexer} {piece : Piece Token}
    (pending : lexer.pending = some piece) : lexer.peek = (.ok piece, lexer) := by
  rw [peek, pending]

/-- A look that succeeds leaves its token pending. -/
theorem pending_peek_iff (lexer : Lexer) :
    lexer.peek.2.pending.isSome ↔ ∃ piece, lexer.peek.1 = .ok piece := by
  unfold peek
  cases pending : lexer.pending with
  | some piece => simp [pending]
  | none => cases Scan.nextToken lexer.rest <;> simp

theorem pending_next (lexer : Lexer) : lexer.next.2.pending = none := by
  unfold next
  split
  · rfl
  · next error after looked =>
    have kept := lexer.pending_peek_iff
    rw [looked] at kept
    simpa using kept

/-- **A colour is refused exactly while a token is pending.** -/
theorem nextColor_eq_tokenPending_iff (lexer : Lexer) :
    lexer.nextColor.1 = .error .tokenPending ↔ lexer.pending.isSome := by
  unfold nextColor
  cases lexer.pending with
  | some piece => exact iff_of_true rfl rfl
  | none => cases Scan.nextColor lexer.rest <;> simp

theorem nextColor_of_pending {lexer : Lexer} (pending : lexer.pending.isSome) :
    lexer.nextColor = (.error .tokenPending, lexer) := by
  obtain ⟨piece, found⟩ := Option.isSome_iff_exists.mp pending
  rw [nextColor, found]

theorem pending_nextColor (lexer : Lexer) : lexer.nextColor.2.pending = lexer.pending := by
  unfold nextColor
  cases pending : lexer.pending with
  | some piece => exact pending
  | none => cases Scan.nextColor lexer.rest <;> rfl

/-- Whether the last token that was looked at with success has not been taken since. -/
def HasPeeked (lexer : Lexer) (calls : List Call) : Prop :=
  ∃ before after piece, calls = before ++ .peek :: after ∧
    ((lexer.behind before).perform .peek).1 = .ok piece ∧ .next ∉ after

theorem hasPeeked_append_singleton (lexer : Lexer) (calls : List Call) (call : Call) :
    lexer.HasPeeked (calls ++ [call]) ↔
      (call = .peek ∧ ∃ piece, ((lexer.behind calls).perform .peek).1 = .ok piece) ∨
        call ≠ .next ∧ lexer.HasPeeked calls := by
  constructor
  · rintro ⟨before, after, piece, split, looked, untaken⟩
    rcases List.eq_nil_or_concat' after with rfl | ⟨later, last, rfl⟩
    · obtain ⟨rfl, same⟩ := List.append_inj' split rfl
      obtain rfl := List.singleton_inj.mp same
      exact .inl ⟨rfl, piece, looked⟩
    · rw [← List.cons_append, ← List.append_assoc] at split
      obtain ⟨rfl, same⟩ := List.append_inj' split rfl
      obtain rfl := List.singleton_inj.mp same
      rw [List.mem_append, List.mem_singleton, not_or] at untaken
      exact .inr ⟨Ne.symm untaken.2, before, later, piece, rfl, looked, untaken.1⟩
  · rintro (⟨rfl, piece, looked⟩ | ⟨other, before, after, piece, rfl, looked, untaken⟩)
    · exact ⟨calls, [], piece, rfl, looked, List.not_mem_nil⟩
    · refine ⟨before, after ++ [call], piece, by simp, looked, ?_⟩
      rw [List.mem_append, List.mem_singleton, not_or]
      exact ⟨untaken, Ne.symm other⟩

/-- **A token is pending exactly if one was looked at and not taken.** -/
theorem pending_behind_iff {lexer : Lexer} (idle : lexer.pending = none) (calls : List Call) :
    (lexer.behind calls).pending.isSome ↔ lexer.HasPeeked calls := by
  induction calls using List.reverseRecOn with
  | nil =>
    refine iff_of_false (by simp [behind, run, idle]) ?_
    rintro ⟨before, after, piece, split, -⟩
    simp at split
  | append_singleton calls call ih =>
    rw [behind_append_singleton, hasPeeked_append_singleton, ← ih]
    cases call with
    | peek =>
      -- A token that was pending is looked at with success.
      have again (pending : (lexer.behind calls).pending.isSome) :
          ∃ piece, ((lexer.behind calls).perform .peek).1 = .ok piece := by
        obtain ⟨piece, found⟩ := Option.isSome_iff_exists.mp pending
        exact ⟨piece, congrArg Prod.fst (peek_of_pending found)⟩
      rw [perform_peek, pending_peek_iff]
      constructor
      · exact fun looked => .inl ⟨rfl, looked⟩
      · rintro (⟨-, looked⟩ | ⟨-, pending⟩)
        · exact looked
        · exact again pending
    | next =>
      rw [perform_next, pending_next]
      simp
    | color =>
      rw [perform_color, pending_nextColor]
      simp

/-! ## Errors that come again -/

/-- A scan from a stray character finds it again. -/
theorem nextToken_start_of_stray {text : List Char} {stray : Scan.Stray}
    (failed : Scan.nextToken text = .error stray) :
    Scan.nextToken stray.start = .error stray := by
  obtain ⟨gap, character, rest, _, isStray, _, rfl⟩ := Scan.nextToken_eq_error_iff.mp failed
  exact Scan.nextToken_eq_error_iff.mpr ⟨[], character, rest, .nil, isStray, rfl, rfl⟩

/-- Taking a token fails where looking at it does. -/
theorem next_eq_error_iff_peek {lexer after : Lexer} {error : LexerError} :
    lexer.next = (.error error, after) ↔ lexer.peek = (.error error, after) := by
  unfold next
  split
  · next looked => simp [looked]
  · next looked => rw [looked]

theorem peek_of_stray {lexer after : Lexer} {stray : Scan.Stray}
    (failed : lexer.peek = (.error (.stray stray), after)) :
    after.peek = (.error (.stray stray), after) := by
  unfold peek at failed
  split at failed
  · cases failed
  · next idle =>
    split at failed
    · cases failed
    · next scanned =>
      cases failed
      simp only [peek, idle, nextToken_start_of_stray scanned]

/-- **A stray character is met again** by the next look at it, and by the next call that would
take it. -/
theorem perform_of_stray {lexer after : Lexer} {stray : Scan.Stray} {first second : Call}
    (token : first ≠ .color) (other : second ≠ .color)
    (failed : lexer.perform first = (.error (.stray stray), after)) :
    after.perform second = (.error (.stray stray), after) := by
  have looked : lexer.peek = (.error (.stray stray), after) := by
    cases first with
    | peek => exact failed
    | next => exact next_eq_error_iff_peek.mp failed
    | color => exact absurd rfl token
  have again := peek_of_stray looked
  cases second with
  | peek => exact again
  | next => exact next_eq_error_iff_peek.mpr again
  | color => exact absurd rfl other

/-! ## Looking ahead -/

/-- **A lexer that has looked ahead answers as if it had not**, and is in the same state behind
the answer, unless a colour is asked for. -/
theorem perform_of_peek {lexer ahead : Lexer} {piece : Piece Token}
    (looked : lexer.peek = (.ok piece, ahead)) {call : Call}
    (accepted : (ahead.perform call).1 ≠ .error .tokenPending) :
    ahead.perform call = lexer.perform call := by
  have again := peek_peek looked
  cases call with
  | peek => exact again.trans looked.symm
  | next => exact (next_of_peek again).trans (next_of_peek looked).symm
  | color =>
    have pending : ahead.pending.isSome := by
      have kept := lexer.pending_peek_iff
      rw [looked] at kept
      exact kept.mpr ⟨piece, rfl⟩
    exact absurd (ahead.nextColor_eq_tokenPending_iff.mpr pending) accepted

theorem run_of_peek {lexer ahead : Lexer} {piece : Piece Token}
    (looked : lexer.peek = (.ok piece, ahead)) {calls : List Call}
    (accepted : .error .tokenPending ∉ (ahead.run calls).1) :
    (ahead.run calls).1 = (lexer.run calls).1 := by
  cases calls with
  | nil => rfl
  | cons call calls =>
    rw [run_cons, List.mem_cons, not_or] at accepted
    rw [run_cons, run_cons, perform_of_peek looked (Ne.symm accepted.1)]

/-- **A look that succeeds can be left out**: the other calls are answered as before. -/
theorem run_without_peek {lexer : Lexer} {before after : List Call} {piece : Piece Token}
    (looked : (lexer.run (before ++ .peek :: after)).1[before.length]? = some (.ok piece))
    (accepted : .error .tokenPending ∉ (lexer.run (before ++ .peek :: after)).1) :
    (lexer.run (before ++ after)).1 =
      (lexer.run (before ++ .peek :: after)).1.eraseIdx before.length := by
  have size := lexer.length_run before
  rw [run_append, run_cons] at looked accepted
  simp only [List.mem_append, List.mem_cons, not_or] at accepted
  rw [← size, List.getElem?_append_right (Nat.le_refl _), Nat.sub_self, List.getElem?_cons_zero,
    Option.some.injEq] at looked
  have same := run_of_peek (Prod.ext looked rfl) accepted.2.2
  rw [run_append, run_append, run_cons, ← size,
    List.eraseIdx_append_of_length_le (Nat.le_refl _), Nat.sub_self, List.eraseIdx_cons_zero]
  exact congrArg ((lexer.run before).1 ++ ·) same.symm

/-- **Lookahead is transparent.**  However a lexer has been called, it stands at a place of its
source, and no call moves it back or out of the source.  A colour is refused exactly if a
token has been looked at with success and not been taken since, and then nothing changes.  A
stray character is met again by the next call that looks at a token or takes one.  And where
no colour is refused, a look that succeeds can be left out, and the other calls have the same
answers. -/
theorem lookahead_transparent (source : List Char) (calls : List Call) :
    let reached := (ofCharacters source).behind calls
    (reached.rest = source.drop reached.pos ∧ reached.pos ≤ source.length) ∧
    (∀ call, reached.pos ≤ (reached.perform call).2.pos ∧
      (reached.perform call).2.pos ≤ source.length) ∧
    ((reached.perform .color).1 = .error .tokenPending ↔ (ofCharacters source).HasPeeked calls) ∧
    ((reached.perform .color).1 = .error .tokenPending → (reached.perform .color).2 = reached) ∧
    (∀ first second stray after, first ≠ .color → second ≠ .color →
      reached.perform first = (.error (.stray stray), after) →
        after.perform second = (.error (.stray stray), after)) ∧
    ∀ before after piece, calls = before ++ .peek :: after →
      ((ofCharacters source).run calls).1[before.length]? = some (.ok piece) →
      .error .tokenPending ∉ ((ofCharacters source).run calls).1 →
      ((ofCharacters source).run (before ++ after)).1 =
        ((ofCharacters source).run calls).1.eraseIdx before.length := by
  intro reached
  obtain ⟨same, suffix⟩ := (ofCharacters source).behind_suffix calls
  have refused := nextColor_eq_tokenPending_iff reached
  refine ⟨⟨?_, ?_⟩, fun call => ⟨reached.pos_le_perform call, ?_⟩, ?_, ?_, ?_, ?_⟩
  · rw [pos, same]
    exact List.suffix_iff_eq_drop.mp suffix
  · rw [pos, same]
    exact Nat.sub_le _ _
  · rw [pos, (reached.perform_suffix call).1, same]
    exact Nat.sub_le _ _
  · exact refused.trans (pending_behind_iff rfl calls)
  · exact fun asked => congrArg Prod.snd (nextColor_of_pending (refused.mp asked))
  · exact fun first second stray after => perform_of_stray
  · rintro before after piece rfl
    exact run_without_peek

end Lexer

end TreeStyle
