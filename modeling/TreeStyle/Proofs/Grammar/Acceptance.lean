import TreeStyle.Proofs.Grammar.Phrases

/-!
# What the stages of a rule accept

The transitions between stages form a table (`Stage.Takes`), and the step of a stage
is that table (`Stage.step_eq_ok_iff`).  A list of tokens is accepted from a stage if
the table leads through it and ends between two rules (`Stage.Accepts`).

Reading a source is accepting the tokens it spells: the stages ask for a colour
exactly where the table takes one, so the way a source is scanned and the way it is
accepted never part.

Main statements: `Stage.step_eq_ok_iff` and `readRules_eq_ok_iff`.
-/

namespace TreeStyle

set_option autoImplicit false

/-! ## Names and keys -/

/-- A word is a key of a field exactly if the field is looked up under it. -/
theorem Property.ofKey?_eq_some_iff {word : String} {property : Property} :
    Property.ofKey? word = some property ↔ property.HasKey word := by
  unfold Property.ofKey? Property.HasKey
  constructor
  · intro found
    simp only at found
    split at found
    · next key => cases found; exact ⟨"fg", by simp [keys], key⟩
    · split at found
      · next key => cases found; exact ⟨"bg", by simp [keys], key⟩
      · split at found
        · next key =>
          cases found
          rcases key with key | key | key
          · exact ⟨"attr", by simp [keys], key⟩
          · exact ⟨"attrb", by simp [keys], key⟩
          · exact ⟨"attribute", by simp [keys], key⟩
        · cases found
  · rintro ⟨key, listed, lowered⟩
    simp only [lowered]
    cases property <;> simp only [keys, List.mem_cons, List.not_mem_nil, or_false] at listed
    · subst listed; decide
    · subst listed; decide
    · rcases listed with rfl | rfl | rfl <;> decide

/-- A group is looked up under its own name alone. -/
theorem Highlight.ofName?_eq_some_iff {word : String} {group : Highlight} :
    Highlight.ofName? word = some group ↔ word = group.name := by
  constructor
  · intro found
    have same := List.find?_some found
    exact (eq_of_beq same).symm
  · rintro rfl
    exact ofName?_name group

/-- No group has the name of a field. -/
theorem Property.ofKey?_name (group : Highlight) : Property.ofKey? group.name = none := by
  cases group <;> decide

/-- One more name is taken exactly if it is new to the set. -/
theorem AttributeSet.insertName_eq_ok_iff {attrs more : AttributeSet} {text : List Char} :
    attrs.insertName text = .ok more ↔
      ∃ flag, Attribute.ofName? text = some flag ∧ flag ∉ attrs ∧
        more = attrs ∪ singleton flag := by
  unfold insertName
  constructor
  · intro inserted
    split at inserted
    · cases inserted
    · next flag named =>
      split at inserted
      · cases inserted
      · next fresh =>
        injection inserted with same
        exact ⟨flag, named, fresh, same.symm⟩
  · rintro ⟨flag, named, fresh, rfl⟩
    simp only [named, if_neg fresh]

/-! ## The table of transitions -/

/-- The chain with further links. -/
def Chain.extend (chain : Chain) (links : List (Combinator × String)) : Chain :=
  { chain with links := chain.links ++ links }

namespace Stage

/-- What each stage takes, and where that leads. -/
inductive Takes : Stage → Token → Step → Prop where
  | opening (kind : String) :
      Takes between (.identifier kind) (.proceed (afterKind [] ⟨kind, []⟩))
  | nextSelector (finished : Selectors) (kind : String) :
      Takes (selectorStart finished) (.identifier kind)
        (.proceed (afterKind finished.val ⟨kind, []⟩))
  | linked (finished : List Chain) (chain : Chain) (combinator : Combinator) (kind : String) :
      Takes (linkedKind finished chain combinator) (.identifier kind)
        (.proceed (afterKind finished (chain.extend [(combinator, kind)])))
  | descendant (finished : List Chain) (chain : Chain) (kind : String) :
      Takes (afterKind finished chain) (.identifier kind)
        (.proceed (afterKind finished (chain.extend [(.descendant, kind)])))
  | joint (finished : List Chain) (chain : Chain) {mark : Mark} {combinator : Combinator}
      (joined : mark.combinator? = some combinator) :
      Takes (afterKind finished chain) (.mark mark)
        (.proceed (linkedKind finished chain combinator))
  | selectorComma (finished : List Chain) (chain : Chain) :
      Takes (afterKind finished chain) (.mark .comma)
        (.proceed (selectorStart (withChain finished chain)))
  | selectorColon (finished : List Chain) (chain : Chain) :
      Takes (afterKind finished chain) (.mark .colon)
        (.proceed (declaration (withChain finished chain)))
  | leftBrace (selectors : Selectors) :
      Takes (declaration selectors) (.mark .leftBrace) (.proceed (key selectors true {}))
  | firstKey (selectors : Selectors) {property : Property} {word : String}
      (keyed : property.HasKey word) :
      Takes (declaration selectors) (.identifier word)
        (.proceed (afterKey selectors false {} property word))
  | group (selectors : Selectors) (group : Highlight) :
      Takes (declaration selectors) (.identifier group.name)
        (.proceed (ruleEnd selectors (.highlight group)))
  | key (selectors : Selectors) (braced : Bool) {style : PartialStyle} {property : Property}
      {word : String} (keyed : property.HasKey word)
      (unset : style.specifies property = false) :
      Takes (key selectors braced style) (.identifier word)
        (.proceed (afterKey selectors braced style property word))
  | keyColon (selectors : Selectors) (braced : Bool) (style : PartialStyle)
      (property : Property) (word : String) :
      Takes (afterKey selectors braced style property word) (.mark .colon)
        (.proceed (valueOf selectors braced style property))
  | color (selectors : Selectors) (braced : Bool) (style : PartialStyle)
      (setting : Color → Setting) {literal : String} {color : Color}
      (stated : Color.ofString literal = .ok color) :
      Takes (colorValue selectors braced style setting) (.color literal)
        (.proceed (afterValue selectors braced style (setting color)))
  | name (selectors : Selectors) (braced : Bool) (style : PartialStyle) {attrs : AttributeSet}
      {word : String} {flag : Attribute} (named : Attribute.ofName? word.toList = some flag)
      (fresh : flag ∉ attrs) :
      Takes (attributeName selectors braced style attrs) (.identifier word)
        (.proceed (afterValue selectors braced style (.attr (attrs ∪ .singleton flag))))
  | pipe (selectors : Selectors) (braced : Bool) (style : PartialStyle) (attrs : AttributeSet) :
      Takes (afterValue selectors braced style (.attr attrs)) (.mark .pipe)
        (.proceed (attributeName selectors braced style attrs))
  | propertyComma (selectors : Selectors) (braced : Bool) (style : PartialStyle)
      (setting : Setting) :
      Takes (afterValue selectors braced style setting) (.mark .comma)
        (.proceed (key selectors braced (style.set setting)))
  | rightBrace (selectors : Selectors) (style : PartialStyle) (setting : Setting) :
      Takes (afterValue selectors true style setting) (.mark .rightBrace)
        (.proceed (ruleEnd selectors (declarationOf style setting)))
  | plainEnd (selectors : Selectors) (style : PartialStyle) (setting : Setting) :
      Takes (afterValue selectors false style setting) (.mark .semicolon)
        (.close (ruleOf selectors (declarationOf style setting)))
  | ruleEnd (selectors : Selectors) (stated : Declaration) :
      Takes (ruleEnd selectors stated) (.mark .semicolon) (.close (ruleOf selectors stated))

/-- The step of a stage takes whatever the table says. -/
theorem Takes.step_eq {stage : Stage} {token : Token} {outcome : Step}
    (taken : Takes stage token outcome) : stage.step token = .ok outcome := by
  cases taken with
  | joint finished chain joined =>
    simp only [step, stepAfterKind]
    split <;> simp_all [Mark.combinator?]
  | firstKey selectors keyed =>
    simp only [step, stepDeclaration, Property.ofKey?_eq_some_iff.mpr keyed]
  | group selectors group =>
    simp only [step, stepDeclaration, Property.ofKey?_name, Highlight.ofName?_name]
  | key selectors braced keyed unset =>
    simp [step, stepKey, Property.ofKey?_eq_some_iff.mpr keyed, unset]
  | color selectors braced style setting stated => simp only [step, stepColor, stated]
  | name selectors braced style named fresh =>
    simp only [step, stepAttribute, AttributeSet.insertName_eq_ok_iff.mpr ⟨_, named, fresh, rfl⟩]
  | propertyComma selectors braced style setting =>
    cases setting <;> cases braced <;> rfl
  | rightBrace selectors style setting => cases setting <;> rfl
  | plainEnd selectors style setting => cases setting <;> rfl
  | _ => rfl

/-- A stage that needs a node kind takes identifiers alone. -/
theorem exists_kind_of_stepKind {token : Token} {next : String → Stage} {outcome : Step}
    (stepped : stepKind token next = .ok outcome) :
    ∃ kind, token = .identifier kind ∧ outcome = .proceed (next kind) := by
  cases token with
  | identifier kind =>
    injection stepped with same
    exact ⟨kind, rfl, same.symm⟩
  | _ => cases stepped

theorem takes_of_stepAfterKind {finished : List Chain} {chain : Chain} {token : Token}
    {outcome : Step} (stepped : stepAfterKind finished chain token = .ok outcome) :
    Takes (afterKind finished chain) token outcome := by
  unfold stepAfterKind at stepped
  split at stepped
  · injection stepped with same
    subst same
    exact .descendant finished chain _
  · injection stepped with same
    subst same
    exact .selectorComma finished chain
  · injection stepped with same
    subst same
    exact .selectorColon finished chain
  · split at stepped
    · next combinator joined =>
      injection stepped with same
      subst same
      exact .joint finished chain joined
    · cases stepped
  · cases stepped

theorem takes_of_stepDeclaration {selectors : Selectors} {token : Token} {outcome : Step}
    (stepped : stepDeclaration selectors token = .ok outcome) :
    Takes (declaration selectors) token outcome := by
  unfold stepDeclaration at stepped
  split at stepped
  · injection stepped with same
    subst same
    exact .leftBrace selectors
  · split at stepped
    · next property keyed =>
      injection stepped with same
      subst same
      exact .firstKey selectors (Property.ofKey?_eq_some_iff.mp keyed)
    · split at stepped
      · next group named =>
        injection stepped with same
        subst same
        rw [Highlight.ofName?_eq_some_iff] at named
        subst named
        exact .group selectors group
      · cases stepped
  · cases stepped

theorem takes_of_stepKey {selectors : Selectors} {braced : Bool} {style : PartialStyle}
    {token : Token} {outcome : Step}
    (stepped : stepKey selectors braced style token = .ok outcome) :
    Takes (key selectors braced style) token outcome := by
  unfold stepKey at stepped
  split at stepped
  · split at stepped
    · cases stepped
    · next property keyed =>
      split at stepped
      · cases stepped
      · next unset =>
        injection stepped with same
        subst same
        exact .key selectors braced (Property.ofKey?_eq_some_iff.mp keyed)
          (Bool.not_eq_true _ ▸ unset)
  · cases stepped

theorem takes_of_stepColor {selectors : Selectors} {braced : Bool} {style : PartialStyle}
    {setting : Color → Setting} {token : Token} {outcome : Step}
    (stepped : stepColor selectors braced style setting token = .ok outcome) :
    Takes (colorValue selectors braced style setting) token outcome := by
  unfold stepColor at stepped
  split at stepped
  · split at stepped
    · next color stated =>
      injection stepped with same
      subst same
      exact .color selectors braced style setting stated
    · cases stepped
  · cases stepped

theorem takes_of_stepAttribute {selectors : Selectors} {braced : Bool} {style : PartialStyle}
    {attrs : AttributeSet} {token : Token} {outcome : Step}
    (stepped : stepAttribute selectors braced style attrs token = .ok outcome) :
    Takes (attributeName selectors braced style attrs) token outcome := by
  unfold stepAttribute at stepped
  split at stepped
  · split at stepped
    · next more inserted =>
      injection stepped with same
      subst same
      obtain ⟨flag, named, fresh, rfl⟩ := AttributeSet.insertName_eq_ok_iff.mp inserted
      exact .name selectors braced style named fresh
    · cases stepped
  · cases stepped

theorem takes_of_stepAfterValue {selectors : Selectors} {braced : Bool} {style : PartialStyle}
    {setting : Setting} {token : Token} {outcome : Step}
    (stepped : stepAfterValue selectors braced style setting token = .ok outcome) :
    Takes (afterValue selectors braced style setting) token outcome := by
  unfold stepAfterValue at stepped
  split at stepped
  · injection stepped with same
    subst same
    exact .pipe selectors _ style _
  · injection stepped with same
    subst same
    exact .propertyComma selectors _ style setting
  · injection stepped with same
    subst same
    exact .rightBrace selectors style setting
  · injection stepped with same
    subst same
    exact .plainEnd selectors style setting
  · cases stepped
  · cases stepped

/-- **The step of a stage is the table of transitions.** -/
theorem step_eq_ok_iff {stage : Stage} {token : Token} {outcome : Step} :
    stage.step token = .ok outcome ↔ Takes stage token outcome := by
  refine ⟨fun stepped => ?_, Takes.step_eq⟩
  cases stage with
  | between =>
    obtain ⟨kind, rfl, rfl⟩ := exists_kind_of_stepKind stepped
    exact .opening kind
  | selectorStart finished =>
    obtain ⟨kind, rfl, rfl⟩ := exists_kind_of_stepKind stepped
    exact .nextSelector finished kind
  | linkedKind finished chain combinator =>
    obtain ⟨kind, rfl, rfl⟩ := exists_kind_of_stepKind stepped
    exact .linked finished chain combinator kind
  | afterKind finished chain => exact takes_of_stepAfterKind stepped
  | declaration selectors => exact takes_of_stepDeclaration stepped
  | key selectors braced style => exact takes_of_stepKey stepped
  | afterKey selectors braced style property word =>
    simp only [step] at stepped
    split at stepped
    · injection stepped with same
      subst same
      exact .keyColon selectors braced style property word
    · cases stepped
  | colorValue selectors braced style setting => exact takes_of_stepColor stepped
  | attributeName selectors braced style attrs => exact takes_of_stepAttribute stepped
  | afterValue selectors braced style setting => exact takes_of_stepAfterValue stepped
  | ruleEnd selectors stated =>
    simp only [step] at stepped
    split at stepped
    · injection stepped with same
      subst same
      exact .ruleEnd selectors stated
    · cases stepped

/-- A stage takes a colour exactly if it asks for one. -/
theorem Takes.isColor {stage : Stage} {token : Token} {outcome : Step}
    (taken : Takes stage token outcome) : token.isColor = stage.expectsColor := by
  cases taken <;> rfl

theorem Takes.ne_endOfInput {stage : Stage} {token : Token} {outcome : Step}
    (taken : Takes stage token outcome) : token ≠ .endOfInput := by
  cases taken <;> simp

/-! ## Acceptance -/

/-- The tokens that lead from a stage to the end of a stylesheet, and the rules that
are closed on the way. -/
inductive Accepts : Stage → List Token → List Rule → Prop where
  | done : Accepts between [] []
  | proceed {stage next : Stage} {token : Token} {tokens : List Token} {rules : List Rule}
      (taken : Takes stage token (.proceed next)) (more : Accepts next tokens rules) :
      Accepts stage (token :: tokens) rules
  | close {stage : Stage} {token : Token} {rule : Rule} {tokens : List Token}
      {rules : List Rule} (taken : Takes stage token (.close rule))
      (more : Accepts between tokens rules) :
      Accepts stage (token :: tokens) (rule :: rules)

end Stage

/-- A source is read to the rules that its tokens are accepted with. -/
theorem exists_tokens_of_readRules {stage : Stage} {opened text : List Char}
    {rules : List Rule} (read : readRules stage opened text = .ok rules) :
    ∃ tokens, Spells tokens text ∧ stage.Accepts tokens rules := by
  fun_induction readRules stage opened text generalizing rules with
  | case1 => cases read
  | case2 opened text piece ended scanned =>
    cases read
    have ending := Stage.readToken_between_eq_endOfInput_iff.mp ⟨piece, scanned, ended⟩
    exact ⟨[], .ending ending, .done⟩
  | case3 => cases read
  | case4 => cases read
  | case5 stage opened text piece scanned token next stepped ih =>
    obtain ⟨tokens, spelled, accepted⟩ := ih read
    have taken := Stage.step_eq_ok_iff.mp stepped
    have first := Stage.exists_lexeme_of_readToken scanned token taken.isColor
    exact ⟨piece.value :: tokens, .token first spelled, .proceed taken accepted⟩
  | case6 stage opened text piece scanned token rule stepped more closed ih =>
    cases read
    obtain ⟨tokens, spelled, accepted⟩ := ih closed
    have taken := Stage.step_eq_ok_iff.mp stepped
    have first := Stage.exists_lexeme_of_readToken scanned token taken.isColor
    exact ⟨piece.value :: tokens, .token first spelled, .close taken accepted⟩
  | case7 => cases read

/-- Tokens that are accepted are read wherever they are spelled. -/
theorem readRules_of_accepts {stage : Stage} {tokens : List Token} {rules : List Rule}
    (accepted : stage.Accepts tokens rules) {opened text : List Char}
    (spelled : Spells tokens text) : readRules stage opened text = .ok rules := by
  induction accepted generalizing opened text with
  | done =>
    cases spelled with
    | ending ending =>
      obtain ⟨piece, read, ended⟩ := Stage.readToken_between_eq_endOfInput_iff.mpr ending
      rw [readRules_of_end read ended]
  | proceed taken _ ih =>
    cases spelled with
    | token first more =>
      have read := Stage.readToken_of_lexeme first taken.isColor
      rw [readRules_of_token read taken.ne_endOfInput, taken.step_eq]
      exact ih more
  | close taken _ ih =>
    cases spelled with
    | token first more =>
      have read := Stage.readToken_of_lexeme first taken.isColor
      rw [readRules_of_token read taken.ne_endOfInput, taken.step_eq]
      simp only [ih more]

/-- **Reading a source is accepting the tokens it spells.** -/
theorem readRules_eq_ok_iff {stage : Stage} {opened text : List Char} {rules : List Rule} :
    readRules stage opened text = .ok rules ↔
      ∃ tokens, Spells tokens text ∧ stage.Accepts tokens rules := by
  refine ⟨exists_tokens_of_readRules, ?_⟩
  rintro ⟨tokens, spelled, accepted⟩
  exact readRules_of_accepts accepted spelled

end TreeStyle
