import TreeStyle.Proofs.Grammar.FirstError
import TreeStyle.Proofs.Grammar.RoundTrip

/-!
# Fields given as texts

The fields of a declaration are given as texts: a colour by a literal, and a set of
attributes by names with bars in between.  Each text has the form of a value
(`Property.Admits`) and need not be one: it states a setting, or there is a cause why it
does not (`Property.read`).  Fields are read one after the other, up to the first one that
states nothing.

A rule is written with the texts of its fields as they are.  Names of attributes are then
read token by token, but what they state, or why they do not, is what their text as a
whole states.

Main statements: `Property.Admits.exists_stated` and `Stylesheet.ofString_fieldRule`.
-/

namespace TreeStyle

set_option autoImplicit false

open Grammar

/-! ## Tokens that are refused -/

namespace Stage

/-- Tokens that lead from a stage to one that refuses the next of them. -/
inductive Refuses : Stage → List Token → Cause → Prop where
  | here {stage : Stage} {token : Token} {tokens : List Token} {cause : Cause}
      (mode : token.isColor = stage.expectsColor) (within : token ≠ .endOfInput)
      (refused : stage.step token = .error cause) : Refuses stage (token :: tokens) cause
  | proceed {stage next : Stage} {token : Token} {tokens : List Token} {cause : Cause}
      (taken : Takes stage token (.proceed next)) (more : Refuses next tokens cause) :
      Refuses stage (token :: tokens) cause

end Stage

/-- What is refused is refused wherever it is spelled. -/
theorem readRules_of_refuses {stage : Stage} {tokens : List Token} {cause : Cause}
    (refuses : stage.Refuses tokens cause) {opened text : List Char}
    (spelled : Spells tokens text) :
    ∃ fault, readRules stage opened text = .error fault ∧ fault.cause = cause := by
  induction refuses generalizing opened text with
  | here mode within refused =>
    cases spelled with
    | token first _ =>
      have read := Stage.readToken_of_lexeme first mode
      rw [readRules_of_token read within, refused]
      exact ⟨_, rfl, rfl⟩
  | proceed taken _ ih =>
    cases spelled with
    | token first more =>
      have read := Stage.readToken_of_lexeme first taken.isColor
      rw [readRules_of_token read taken.ne_endOfInput, taken.step_eq]
      exact ih more

/-! ## What texts state -/

/-- Whether a text has the form of a colour literal. -/
def Scan.isColorText : List Char → Bool
  | '#' :: others => others.all isWordCharacter
  | text => text.all isWordCharacter

/-- Whether a text has the form of a value: a colour literal, or identifiers with bars in
between. -/
def Property.Admits : Property → String → Prop
  | attr, text => ∃ names : List String, names ≠ [] ∧
      (∀ name ∈ names, Scan.isIdentifier name.toList = true) ∧ text = "|".intercalate names
  | _, text => text ≠ "" ∧ Scan.isColorText text.toList = true

/-- The setting that the text of a value states. -/
def Property.read : Property → String → Except Cause Setting
  | fg, text => ((Color.ofString text).mapError .invalidColor).map .fg
  | bg, text => ((Color.ofString text).mapError .invalidColor).map .bg
  | attr, text => ((AttributeSet.ofString text).mapError .invalidAttribute).map .attr

/-- The style that fields state, one after the other. -/
def PartialStyle.readFields (style : PartialStyle) :
    List (Property × String) → Except Cause PartialStyle
  | [] => .ok style
  | (property, text) :: fields => do readFields (style.set (← property.read text)) fields

/-- A text that has the form of a colour literal is scanned as one. -/
theorem Lexeme.of_isColorText {text : String} (nonempty : text ≠ "")
    (colored : Scan.isColorText text.toList = true) : Lexeme (.color text) text.toList := by
  have whole : String.ofList text.toList = text := String.ofList_toList
  unfold Scan.isColorText at colored
  split at colored
  · next others hashed =>
    rw [← whole, hashed, String.toList_ofList]
    exact .hashColor (List.all_eq_true.mp colored)
  · rw [← whole, String.toList_ofList]
    refine .color ?_ (List.all_eq_true.mp colored)
    intro none
    rw [none] at whole
    exact nonempty whole.symm

/-- Word characters are no bars. -/
theorem Scan.bar_not_mem_of_isIdentifier {word : List Char} (named : isIdentifier word = true) :
    '|' ∉ word := by
  intro member
  cases word with
  | nil => cases member
  | cons first others =>
    rw [isIdentifier, Bool.and_eq_true, List.all_eq_true] at named
    rcases List.mem_cons.mp member with rfl | later
    · exact absurd named.1 (by decide)
    · exact absurd (named.2 _ later) (by decide)

/-- Names with bars in between are read one after the other. -/
theorem AttributeSet.ofString_intercalate {names : List String} (nonempty : names ≠ [])
    (identifiers : ∀ name ∈ names, Scan.isIdentifier name.toList = true) :
    ofString ("|".intercalate names) =
      names.foldlM (fun attrs name => insertName attrs name.toList) ∅ := by
  have bar : "|".toList = ['|'] := by decide
  rw [ofString, String.toList_intercalate, bar, Text.partsAt_intercalate, List.foldlM_map]
  · simpa using nonempty
  · intro part member
    obtain ⟨name, listed, rfl⟩ := List.mem_map.mp member
    exact Scan.bar_not_mem_of_isIdentifier (identifiers name listed)

/-! ## Fields of a rule -/

/-- A word, whatever it names. -/
def Grammar.IsWord (tokens : List Token) (word : String) : Prop := tokens = [.identifier word]

namespace Stage

/-- From a stage of an open rule, tokens close the rule with a style, and no other rule
follows; or there is a cause why they do not. -/
def Declares (selectors : Selectors) (stage : Stage) (tokens : List Token) :
    Except Cause PartialStyle → Prop
  | .ok style => ∃ specified : style.isEmpty = false,
      Accepts stage tokens [ruleOf selectors (.properties ⟨style, specified⟩)]
  | .error cause => Refuses stage tokens cause

variable {selectors : Selectors} {style : PartialStyle} {rest : List Token}

theorem Declares.proceed {stage next : Stage} {token : Token} {tokens : List Token}
    {outcome : Except Cause PartialStyle} (taken : Takes stage token (.proceed next))
    (more : Declares selectors next tokens outcome) :
    Declares selectors stage (token :: tokens) outcome := by
  cases outcome with
  | ok style =>
    obtain ⟨specified, accepted⟩ := more
    exact ⟨specified, Accepts.proceed taken accepted⟩
  | error cause => exact Refuses.proceed taken more

/-- A colour is read as a whole. -/
theorem declares_color {setting : Color → Setting} {text : String}
    {after : Color → Except Cause PartialStyle}
    (later : ∀ color,
      Declares selectors (afterValue selectors false style (setting color)) rest (after color)) :
    Declares selectors (colorValue selectors false style setting) (.color text :: rest)
      ((Color.ofString text).mapError .invalidColor >>= after) := by
  cases parsed : Color.ofString text with
  | ok color => exact Declares.proceed (.color selectors false style setting parsed) (later color)
  | error reason =>
    refine Refuses.here rfl (by simp) ?_
    simp only [step, stepColor, parsed]

/-- Attributes are read name by name. -/
theorem declares_names {tokens : List Token} {names : List String}
    (listed : IsSeparated .pipe IsWord tokens names)
    {after : AttributeSet → Except Cause PartialStyle}
    (later : ∀ attrs,
      Declares selectors (afterValue selectors false style (.attr attrs)) rest (after attrs))
    (attrs : AttributeSet) :
    Declares selectors (attributeName selectors false style attrs) (tokens ++ rest)
      ((names.foldlM (fun attrs name => AttributeSet.insertName attrs name.toList) attrs).mapError
        .invalidAttribute >>= after) := by
  -- One name after the other is put into the set, up to the first one that is refused.
  have refused {word : String} {attrs : AttributeSet} {reason : AttributeError}
      (found : attrs.insertName word.toList = .error reason) (tokens : List Token) :
      Refuses (attributeName selectors false style attrs) (.identifier word :: tokens)
        (.invalidAttribute reason) := by
    refine .here rfl (by simp) ?_
    simp only [step, stepAttribute, found]
  have taken {word : String} {attrs more : AttributeSet}
      (found : attrs.insertName word.toList = .ok more) :
      Takes (attributeName selectors false style attrs) (.identifier word)
        (.proceed (afterValue selectors false style (.attr more))) := by
    apply step_eq_ok_iff.mp
    simp only [step, stepAttribute, found]
  induction listed generalizing attrs with
  | @single _ name only =>
    obtain rfl := only
    rw [List.foldlM_cons]
    cases found : attrs.insertName name.toList with
    | ok more => exact Declares.proceed (taken found) (later more)
    | error reason => exact refused found rest
  | @cons _ others name names item _ ih =>
    obtain rfl := item
    rw [List.foldlM_cons, List.append_assoc, List.singleton_append, List.cons_append]
    cases found : attrs.insertName name.toList with
    | ok more => exact Declares.proceed (taken found) (.proceed (.pipe ..) (ih more))
    | error reason => exact refused found _

/-- A text states the setting of a field if tokens for it are read to the setting, or are
refused for its cause, whatever follows. -/
def States (property : Property) (tokens : List Token) (text : String) : Prop :=
  ∀ (selectors : Selectors) (style : PartialStyle) (rest : List Token)
    (after : Setting → Except Cause PartialStyle),
    (∀ setting : Setting, setting.property = property →
      Declares selectors (afterValue selectors false style setting) rest (after setting)) →
    Declares selectors (valueOf selectors false style property) (tokens ++ rest)
      (property.read text >>= after)

/-- A colour literal states the setting of a field that takes colours. -/
theorem states_color {property : Property} (setting : Color → Setting)
    (about : ∀ color, (setting color).property = property)
    (value : ∀ selectors style,
      valueOf selectors false style property = colorValue selectors false style setting)
    (read : ∀ text, property.read text =
      ((Color.ofString text).mapError .invalidColor).map setting) (text : String) :
    States property [.color text] text := by
  intro selectors style rest after later
  have whole : property.read text >>= after =
      ((Color.ofString text).mapError .invalidColor >>= fun color => after (setting color)) := by
    rw [read]
    cases Color.ofString text <;> rfl
  rw [value, whole]
  exact declares_color fun color => later (setting color) (about color)

end Stage

/-- **A text that has the form of a value is written by tokens that state it.** -/
theorem Property.Admits.exists_stated {property : Property} {text : String}
    (admitted : property.Admits text) :
    ∃ tokens, Stage.States property tokens text ∧ Writes tokens text.toList := by
  cases property with
  | fg =>
    exact ⟨_, Stage.states_color .fg (fun _ => rfl) (fun _ _ => rfl) (fun _ => rfl) text,
      .lexeme (.of_isColorText admitted.1 admitted.2)⟩
  | bg =>
    exact ⟨_, Stage.states_color .bg (fun _ => rfl) (fun _ _ => rfl) (fun _ => rfl) text,
      .lexeme (.of_isColorText admitted.1 admitted.2)⟩
  | attr =>
    obtain ⟨names, nonempty, identifiers, rfl⟩ := admitted
    have words : ∃ tokens, IsSeparated .pipe IsWord tokens names ∧
        Writes tokens ("|".intercalate (names.map id)).toList :=
      Writes.exists_separated [] (by decide) rfl nonempty fun name member =>
        ⟨_, rfl, .identifier (identifiers name member)⟩
    obtain ⟨tokens, listed, written⟩ := words
    rw [List.map_id] at written
    refine ⟨tokens, ?_, written⟩
    intro selectors style rest after later
    have whole : Property.attr.read ("|".intercalate names) >>= after =
        ((names.foldlM (fun attrs name => AttributeSet.insertName attrs name.toList) ∅).mapError
          .invalidAttribute >>= fun attrs => after (.attr attrs)) := by
      rw [Property.read, AttributeSet.ofString_intercalate nonempty identifiers]
      cases names.foldlM (fun attrs name => AttributeSet.insertName attrs name.toList) ∅ <;> rfl
    rw [whole]
    exact Stage.declares_names listed (fun attrs => later (.attr attrs) rfl) ∅

/-! ## Rules with fields -/

/-- The name of a field with a value that states a text. -/
def Grammar.IsField (tokens : List Token) (field : Property × String) : Prop :=
  ∃ value, Stage.States field.1 value field.2 ∧
    tokens = .identifier field.1.name :: .mark .colon :: value

/-- The text of a field. -/
def Property.fieldText (field : Property × String) : String := field.1.name ++ ": " ++ field.2

theorem Writes.exists_field {field : Property × String} (admitted : field.1.Admits field.2) :
    ∃ tokens, IsField tokens field ∧ Writes tokens (Property.fieldText field).toList := by
  obtain ⟨value, states, written⟩ := admitted.exists_stated
  refine ⟨_, ⟨value, states, rfl⟩, ?_⟩
  have text : (Property.fieldText field).toList =
      field.1.name.toList ++ Mark.colon.character :: ' ' :: field.2.toList := by
    rw [Property.fieldText, String.toList_append, String.toList_append, List.append_assoc]
    rfl
  rw [text]
  exact written.field field.1

/-- **Fields close a rule with the style that they state**, or are refused for the cause of
the first one that states nothing. -/
theorem Stage.declares_fields {selectors : Selectors} {tokens : List Token}
    {fields : List (Property × String)} (listed : IsSeparated .comma IsField tokens fields)
    (distinct : (fields.map Prod.fst).Nodup) {style : PartialStyle}
    (unset : ∀ field ∈ fields, style.specifies field.1 = false) :
    ∃ property others, tokens = .identifier property.name :: others ∧
      style.specifies property = false ∧
      Declares selectors (afterKey selectors false style property property.name)
        (others ++ [.mark .semicolon]) (style.readFields fields) := by
  induction listed generalizing style with
  | @single _ field only =>
    obtain ⟨value, states, rfl⟩ := only
    refine ⟨field.1, _, rfl, unset field List.mem_cons_self, ?_⟩
    refine Declares.proceed (.keyColon ..) (states selectors style _ _ ?_)
    intro setting _
    exact ⟨style.isEmpty_set setting, Accepts.close (.plainEnd ..) .done⟩
  | @cons _ others field fields item _ ih =>
    obtain ⟨value, states, rfl⟩ := item
    obtain ⟨fresh, distinct⟩ := List.nodup_cons.mp distinct
    refine ⟨field.1, .mark .colon :: (value ++ .mark .comma :: others), rfl,
      unset field List.mem_cons_self, ?_⟩
    rw [List.cons_append, List.append_assoc]
    refine Declares.proceed (.keyColon ..) (states selectors style _ _ ?_)
    intro setting about
    have later : ∀ other ∈ fields, (style.set setting).specifies other.1 = false := by
      intro other member
      refine (PartialStyle.specifies_set style setting other.1).mpr
        ⟨unset other (List.mem_cons_of_mem _ member), ?_⟩
      rw [about]
      intro same
      exact fresh (List.mem_map.mpr ⟨other, member, same⟩)
    obtain ⟨property, more, rfl, unspecified, declares⟩ := ih distinct later
    exact Declares.proceed (.propertyComma ..)
      (.proceed (.key selectors false property.hasKey_name unspecified) declares)

/-- The stylesheet of one rule, for the nodes of a kind. -/
def Stylesheet.forKind (kind : String) (declaration : Declaration) : Stylesheet :=
  ⟨[⟨[⟨kind, []⟩], declaration, List.cons_ne_nil _ _⟩]⟩

/-- A rule for one kind is spelled by the kind, a colon, its declaration and a semicolon. -/
theorem Writes.spells_forKind {kind : String} (named : Scan.isIdentifier kind.toList = true)
    {tokens : List Token} {declaration : String} (written : Writes tokens declaration.toList) :
    Spells (.identifier kind :: .mark .colon :: (tokens ++ [.mark .semicolon]))
      (kind ++ ": " ++ declaration ++ ";").toList := by
  have text : (kind ++ ": " ++ declaration ++ ";").toList =
      kind.toList ++ Mark.colon.character :: ' ' ::
        (declaration.toList ++ Mark.semicolon.character :: []) := by
    simp only [String.toList_append, List.append_assoc]
    rfl
  rw [text]
  exact ((Writes.identifier named).append_mark .colon
    (written.append_mark .semicolon .nil).blank_cons).spells

/-- A rule that borrows the style of a highlight group is read. -/
theorem Stylesheet.ofString_groupRule {kind : String}
    (named : Scan.isIdentifier kind.toList = true) (group : Highlight) :
    ofString (kind ++ ": " ++ group.name ++ ";") = .ok (forKind kind (.highlight group)) := by
  have spelled := Writes.spells_forKind named (.identifier group.isIdentifier_name)
  have accepted : Stage.Accepts .between
      [.identifier kind, .mark .colon, .identifier group.name, .mark .semicolon]
      (forKind kind (.highlight group)).rules :=
    .proceed (.opening kind) (.proceed (.selectorColon ..) (.proceed (.group _ group)
      (.close (.ruleEnd ..) .done)))
  exact ofCharacters_of_ok (readRules_of_accepts accepted spelled)

/-- The text of a rule for one kind with fields. -/
def Stylesheet.fieldRule (kind : String) (fields : List (Property × String)) : String :=
  kind ++ ": " ++ ", ".intercalate (fields.map Property.fieldText) ++ ";"

/-- **A rule with fields is read to the style that its fields state**, or it has the error
of the first one that states nothing. -/
theorem Stylesheet.ofString_fieldRule {kind : String}
    (named : Scan.isIdentifier kind.toList = true) {fields : List (Property × String)}
    (nonempty : fields ≠ []) (distinct : (fields.map Prod.fst).Nodup)
    (admitted : ∀ field ∈ fields, field.1.Admits field.2) :
    (∃ (style : PartialStyle) (specified : style.isEmpty = false),
      PartialStyle.readFields {} fields = .ok style ∧
      ofString (fieldRule kind fields) = .ok (forKind kind (.properties ⟨style, specified⟩))) ∨
    ∃ error, PartialStyle.readFields {} fields = .error error.cause ∧
      ofString (fieldRule kind fields) = .error error := by
  have separated : ∃ tokens, IsSeparated .comma IsField tokens fields ∧
      Writes tokens (", ".intercalate (fields.map Property.fieldText)).toList :=
    Writes.exists_separated [' '] (by decide) (by decide) nonempty fun field member =>
      Writes.exists_field (admitted field member)
  obtain ⟨tokens, listed, written⟩ := separated
  have spelled := Writes.spells_forKind named written
  have declares : Stage.Declares (Stage.withChain [] ⟨kind, []⟩) .between
      (.identifier kind :: .mark .colon :: (tokens ++ [.mark .semicolon]))
      (PartialStyle.readFields {} fields) := by
    obtain ⟨property, others, rfl, _, declares⟩ :=
      @Stage.declares_fields (Stage.withChain [] ⟨kind, []⟩) _ _ listed distinct {}
        fun field _ => by cases field.1 <;> rfl
    exact .proceed (.opening kind) (.proceed (.selectorColon ..)
      (.proceed (.firstKey _ property.hasKey_name) declares))
  cases outcome : PartialStyle.readFields {} fields with
  | ok style =>
    rw [outcome] at declares
    obtain ⟨specified, accepted⟩ := declares
    refine .inl ⟨style, specified, rfl, ?_⟩
    exact ofCharacters_of_ok (readRules_of_accepts accepted spelled)
  | error cause =>
    rw [outcome] at declares
    have refused : ∃ fault, (Reader.start (fieldRule kind fields).toList).rules = .error fault ∧
        fault.cause = cause := readRules_of_refuses declares spelled
    obtain ⟨fault, failed, rfl⟩ := refused
    exact .inr ⟨_, rfl, ofCharacters_of_error failed⟩

end TreeStyle
