import TreeStyle.Proofs.Grammar.RoundTrip

/-!
# Completing a rule

From almost every stage a rule can be completed.  The two exceptions are stages that have
nothing left to take: at the key of a property when each field has been given, and at the
name of an attribute when each one has been listed (`Stage.IsExhausted`).  The tokens that
lead there are those that go on, by a comma or a bar, from where a rule with all fields or
all attributes could have been closed (`Grammar.IsDeadEnd`).

A completion gives an unset field or a fresh attribute where one is due, and closes the
rule at the next place where it can.

Main statements: `Stage.completes_of_not_isExhausted`, `Stage.IsExhausted.not_accepts` and
`Grammar.isDeadEnd_concat_iff`.
-/

namespace TreeStyle

set_option autoImplicit false

open Stage Grammar

/-! ## Dead ends -/

/-- A stage that has nothing left to take. -/
def Stage.IsExhausted : Stage → Prop
  | key _ _ style => ∀ property, style.specifies property = true
  | attributeName _ _ _ attrs => ∀ flag, flag ∈ attrs
  | _ => False

/-- Tokens from the first one of a rule on that no tokens complete.  What stands in front
of the last one could have been closed to a rule with every field given, or with every
attribute listed. -/
inductive Grammar.IsDeadEnd : List Token → Prop where
  | comma {before : List Token} {braced : Bool} {rule : Rule} {style : SpecifiedStyle}
      (closed : IsRule (before ++ closing braced) rule)
      (stated : rule.declaration = .properties style)
      (given : ∀ property, style.val.specifies property = true) :
      IsDeadEnd (before ++ [.mark .comma])
  | pipe {before : List Token} {braced : Bool} {rule : Rule} {style : SpecifiedStyle}
      {attrs : AttributeSet} (closed : IsRule (before ++ closing braced) rule)
      (stated : rule.declaration = .properties style) (listed : style.val.attrs = some attrs)
      (full : ∀ flag, flag ∈ attrs) :
      IsDeadEnd (before ++ [.mark .pipe])

/-- A rule is what is accepted between two rules with one rule closed. -/
theorem Grammar.isRule_iff_accepts {tokens : List Token} {rule : Rule} :
    IsRule tokens rule ↔ Accepts between tokens [rule] := by
  constructor
  · intro phrase
    have accepted := phrase.accepts .done
    rwa [List.append_nil] at accepted
  · intro accepted
    cases accepted.isSheet with
    | cons opening more =>
      cases more
      rwa [List.append_nil]

/-! ## Nothing is left to take -/

/-- **No tokens are accepted where nothing is left to take.** -/
theorem Stage.IsExhausted.not_accepts {stage : Stage} (exhausted : stage.IsExhausted)
    (tokens : List Token) (rules : List Rule) : ¬ Accepts stage tokens rules := by
  intro accepted
  cases accepted with
  | done => exact exhausted
  | proceed taken =>
    cases taken with
    | @key _ _ _ property _ _ unset =>
      rw [exhausted property] at unset
      cases unset
    | @name _ _ _ _ _ flag _ fresh => exact fresh (exhausted flag)
    | _ => exact exhausted
  | close taken => cases taken <;> exact exhausted

/-- A stage at which a rule is closed after a value stands behind that value. -/
theorem Stage.Accepts.rule_eq_of_closing {selectors : Selectors} {braced other : Bool}
    {style : PartialStyle} {setting : Setting} {rule : Rule}
    (accepted : Accepts (afterValue selectors braced style setting) (closing other) [rule]) :
    rule = ruleOf selectors (declarationOf style setting) := by
  have stop : (closing other).head? ≠ some (.mark .pipe) := by
    cases other <;> simp [closing]
  rcases accepted.close_or_comma stop with ⟨rest, others, _, same, _⟩ | ⟨_, _, _, _, _, comma, _⟩
  · cases same
    rfl
  · cases other <;> cases comma

theorem Stage.accepts_closing (selectors : Selectors) (braced : Bool) (style : PartialStyle)
    (setting : Setting) :
    Accepts (afterValue selectors braced style setting) (closing braced)
      [ruleOf selectors (declarationOf style setting)] := by
  cases braced with
  | false => exact .close (.plainEnd ..) .done
  | true => exact .proceed (.rightBrace ..) (.close (.ruleEnd ..) .done)

/-- A stage that goes on with a comma or a bar, and at which a rule could be closed as
well, stands behind a value. -/
theorem Stage.Takes.exists_afterValue {stage next : Stage} {mark : Mark}
    (taken : Takes stage (.mark mark) (.proceed next)) (goesOn : mark = .comma ∨ mark = .pipe)
    {braced : Bool} {rule : Rule} (closed : Accepts stage (closing braced) [rule]) :
    ∃ selectors inner style setting, stage = afterValue selectors inner style setting ∧
      rule = ruleOf selectors (declarationOf style setting) := by
  cases taken with
  | pipe | propertyComma => exact ⟨_, _, _, _, rfl, closed.rule_eq_of_closing⟩
  | selectorComma =>
    cases braced with
    | false | true =>
      cases closed with
      | proceed taken => cases taken with | joint _ _ joined => cases joined
      | close taken => cases taken
  | joint _ _ joined => rcases goesOn with rfl | rfl <;> cases joined
  | _ => rcases goesOn with same | same <;> cases same

/-- **Tokens are a dead end exactly if nothing is left to take behind them.**  The stage
that is reached in front of the last token is given by what is accepted from there. -/
theorem Grammar.isDeadEnd_concat_iff {before : List Token} {token : Token} {stage next : Stage}
    (reached : ∀ more rule,
      Accepts between (before ++ more) [rule] ↔ Accepts stage more [rule])
    (taken : Takes stage token (.proceed next)) :
    IsDeadEnd (before ++ [token]) ↔ next.IsExhausted := by
  constructor
  · intro deadEnd
    generalize whole : before ++ [token] = tokens at deadEnd
    cases deadEnd with
    | comma closed stated given =>
      obtain ⟨rfl, same⟩ := List.append_inj' whole rfl
      cases same
      have accepted := (reached _ _).mp (isRule_iff_accepts.mp closed)
      obtain ⟨selectors, inner, style, setting, rfl, rfl⟩ :=
        taken.exists_afterValue (.inl rfl) accepted
      cases stated
      cases taken
      exact given
    | pipe closed stated listed full =>
      obtain ⟨rfl, same⟩ := List.append_inj' whole rfl
      cases same
      have accepted := (reached _ _).mp (isRule_iff_accepts.mp closed)
      obtain ⟨selectors, inner, style, setting, rfl, rfl⟩ :=
        taken.exists_afterValue (.inr rfl) accepted
      cases stated
      cases taken
      cases listed
      exact full
  · intro exhausted
    have closed {selectors : Selectors} {braced : Bool} {style : PartialStyle}
        {setting : Setting} (same : stage = afterValue selectors braced style setting) :
        IsRule (before ++ closing braced) (ruleOf selectors (declarationOf style setting)) := by
      subst same
      exact isRule_iff_accepts.mpr ((reached _ _).mpr (accepts_closing ..))
    cases taken with
    | propertyComma => exact .comma (closed rfl) rfl exhausted
    | pipe => exact .pipe (closed rfl) rfl rfl exhausted
    | leftBrace => exact absurd (exhausted .fg) (by decide)
    | keyColon _ _ _ property =>
      cases property with
      | fg | bg => exact exhausted.elim
      | attr => exact absurd (exhausted .bold) (AttributeSet.not_mem_empty _)
    | _ => exact exhausted.elim

/-! ## Completions -/

/-- Some text completes the open rule. -/
def Stage.Completes (stage : Stage) : Prop :=
  ∃ tokens text rule, Accepts stage tokens [rule] ∧ Writes tokens text

namespace Stage

theorem Takes.completes {stage : Stage} {mark : Mark} {rule : Rule}
    (taken : Takes stage (.mark mark) (.close rule)) : stage.Completes :=
  ⟨_, _, rule, .close taken .done, .mark_cons mark .nil⟩

/-- A token that leads to a stage that completes, and a blank behind it. -/
theorem Completes.cons {stage next : Stage} {token : Token} {lexeme : List Char}
    (completes : next.Completes) (taken : Takes stage token (.proceed next))
    (spelling : Lexeme token lexeme) : stage.Completes := by
  obtain ⟨tokens, text, rule, accepted, written⟩ := completes
  have blank : WordEnds (' ' :: text) := .cons (by decide) text
  exact ⟨_, _, rule, .proceed taken accepted,
    (Writes.lexeme spelling).append written.blank_cons blank⟩

theorem completes_ruleEnd (selectors : Selectors) (stated : Declaration) :
    (ruleEnd selectors stated).Completes :=
  (Takes.ruleEnd selectors stated).completes

theorem completes_afterValue (selectors : Selectors) (braced : Bool) (style : PartialStyle)
    (setting : Setting) : (afterValue selectors braced style setting).Completes := by
  cases braced with
  | false => exact (Takes.plainEnd selectors style setting).completes
  | true => exact (completes_ruleEnd _ _).cons (.rightBrace selectors style setting) (.mark _)

theorem completes_colorValue (selectors : Selectors) (braced : Bool) (style : PartialStyle)
    (setting : Color → Setting) : (colorValue selectors braced style setting).Completes :=
  (completes_afterValue _ _ _ _).cons
    (.color selectors braced style setting (Color.ansi 0).ofString_render)
    (Color.ansi 0).lexeme_render

theorem completes_attributeName (selectors : Selectors) (braced : Bool) (style : PartialStyle)
    {attrs : AttributeSet} {flag : Attribute} (fresh : flag ∉ attrs) :
    (attributeName selectors braced style attrs).Completes :=
  (completes_afterValue _ _ _ _).cons (.name selectors braced style flag.ofName?_name fresh)
    (Lexeme.of_isIdentifier flag.isIdentifier_name)

theorem completes_valueOf (selectors : Selectors) (braced : Bool) (style : PartialStyle)
    (property : Property) : (valueOf selectors braced style property).Completes := by
  cases property with
  | fg | bg => exact completes_colorValue ..
  | attr => exact completes_attributeName _ _ _ (AttributeSet.not_mem_empty .bold)

theorem completes_afterKey (selectors : Selectors) (braced : Bool) (style : PartialStyle)
    (property : Property) (word : String) :
    (afterKey selectors braced style property word).Completes :=
  (completes_valueOf _ _ _ _).cons (.keyColon selectors braced style property word) (.mark _)

theorem completes_key (selectors : Selectors) (braced : Bool) {style : PartialStyle}
    {property : Property} (unset : style.specifies property = false) :
    (key selectors braced style).Completes :=
  (completes_afterKey _ _ _ _ _).cons (.key selectors braced property.hasKey_name unset)
    (Lexeme.of_isIdentifier (by cases property <;> decide))

theorem completes_declaration (selectors : Selectors) : (declaration selectors).Completes :=
  (completes_ruleEnd _ _).cons (.group selectors .canvas)
    (Lexeme.of_isIdentifier (Highlight.isIdentifier_name _))

theorem completes_afterKind (finished : List Chain) (chain : Chain) :
    (afterKind finished chain).Completes :=
  (completes_declaration _).cons (.selectorColon finished chain) (.mark _)

/-- **A rule can be completed from every stage inside it**, unless nothing is left to
take there. -/
theorem completes_of_not_isExhausted {stage : Stage} (inside : stage ≠ between)
    (open_end : ¬ stage.IsExhausted) : stage.Completes := by
  have kind : Lexeme (.identifier "a") "a".toList := Lexeme.of_isIdentifier (by decide)
  cases stage with
  | between => exact absurd rfl inside
  | selectorStart finished =>
    exact (completes_afterKind _ _).cons (.nextSelector finished "a") kind
  | linkedKind finished chain combinator =>
    exact (completes_afterKind _ _).cons (.linked finished chain combinator "a") kind
  | afterKind finished chain => exact completes_afterKind finished chain
  | declaration selectors => exact completes_declaration selectors
  | key selectors braced style =>
    obtain ⟨property, unset⟩ := Classical.not_forall.mp open_end
    exact completes_key _ _ (Bool.not_eq_true _ ▸ unset)
  | afterKey => exact completes_afterKey ..
  | colorValue => exact completes_colorValue ..
  | attributeName selectors braced style attrs =>
    obtain ⟨flag, fresh⟩ := Classical.not_forall.mp open_end
    exact completes_attributeName _ _ _ fresh
  | afterValue => exact completes_afterValue ..
  | ruleEnd => exact completes_ruleEnd ..

end Stage

end TreeStyle
