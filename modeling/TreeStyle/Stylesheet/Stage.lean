import TreeStyle.Stylesheet
import TreeStyle.Stylesheet.ParseError

/-!
# The stages of a rule

Reading a rule passes through stages.  A stage says what may come next and holds
what the rule has stated so far, so reading on is a function of a stage and a
token: it goes to another stage, closes the rule, or refuses the token.  No
stage depends on the rules before, and only the stage tells whether the next
token is scanned as a colour.

    rule      = selector { "," selector } ":" style ";"
    selector  = kind { [ "+" | "~" | ">" ] kind }
    style     = group | "{" props "}" | props
    props     = prop { "," prop }
    prop      = ( "fg" | "bg" ) ":" color
              | ( "attr" | "attrb" | "attribute" ) ":" name { "|" name }
-/

namespace TreeStyle

set_option autoImplicit false

/-! ## Stages -/

/-- The selectors of an open rule: at least one. -/
abbrev Selectors := { chains : List Chain // chains ≠ [] }

/-- Where reading stands. -/
inductive Stage where
  /-- Between two rules. -/
  | between
  /-- At the first node kind of a further selector. -/
  | selectorStart (finished : Selectors)
  /-- At the node kind after a combinator. -/
  | linkedKind (finished : List Chain) (chain : Chain) (combinator : Combinator)
  /-- After a node kind. -/
  | afterKind (finished : List Chain) (chain : Chain)
  /-- At the declaration. -/
  | declaration (selectors : Selectors)
  /-- At the key of a property. -/
  | key (selectors : Selectors) (braced : Bool) (style : PartialStyle)
  /-- Between a key and its value. -/
  | afterKey (selectors : Selectors) (braced : Bool) (style : PartialStyle)
      (property : Property) (key : String)
  /-- At the value of a colour property, which `setting` turns into a setting. -/
  | colorValue (selectors : Selectors) (braced : Bool) (style : PartialStyle)
      (setting : Color → Setting)
  /-- At the name of an attribute. -/
  | attributeName (selectors : Selectors) (braced : Bool) (style : PartialStyle)
      (attrs : AttributeSet)
  /-- After the value of a property. -/
  | afterValue (selectors : Selectors) (braced : Bool) (style : PartialStyle) (setting : Setting)
  /-- At the end of the rule. -/
  | ruleEnd (selectors : Selectors) (declaration : Declaration)

/-- What a token does at a stage. -/
inductive Step where
  /-- Reading goes on at another stage. -/
  | proceed (stage : Stage)
  /-- The rule is complete. -/
  | close (rule : Rule)

/-! ## Steps -/

/-- The combinator that a mark stands for. -/
def Mark.combinator? : Mark → Option Combinator
  | .plus => some .twin
  | .tilde => some .sibling
  | .greater => some .child
  | _ => none

namespace Stage

/-- The selectors of a rule when one more is finished. -/
def withChain (finished : List Chain) (chain : Chain) : Selectors :=
  ⟨finished ++ [chain], by simp⟩

/-- Whether the next token is scanned as a colour. -/
def expectsColor : Stage → Bool
  | colorValue .. => true
  | _ => false

/-- The stage at the value of a property. -/
def valueOf (selectors : Selectors) (braced : Bool) (style : PartialStyle) : Property → Stage
  | .fg => colorValue selectors braced style Setting.fg
  | .bg => colorValue selectors braced style Setting.bg
  | .attr => attributeName selectors braced style ∅

/-- A node kind at a stage that needs one. -/
def stepKind (token : Token) (next : String → Stage) : Except Cause Step :=
  match token with
  | .identifier kind => .ok (.proceed (next kind))
  | found => .error (.unexpected .nodeKind found)

/-- The token after a node kind: another link, another selector, or the colon. -/
def stepAfterKind (finished : List Chain) (chain : Chain) (token : Token) : Except Cause Step :=
  match token with
  | .identifier kind =>
    .ok (.proceed (afterKind finished
      { chain with links := chain.links ++ [(Combinator.descendant, kind)] }))
  | .mark .comma => .ok (.proceed (selectorStart (withChain finished chain)))
  | .mark .colon => .ok (.proceed (declaration (withChain finished chain)))
  | .mark mark =>
    match mark.combinator? with
    | some combinator => .ok (.proceed (linkedKind finished chain combinator))
    | none => .error (.unexpected .selectorEnd (.mark mark))
  | found => .error (.unexpected .selectorEnd found)

/-- The first token of a declaration. -/
def stepDeclaration (selectors : Selectors) (token : Token) : Except Cause Step :=
  match token with
  | .mark .leftBrace => .ok (.proceed (key selectors true {}))
  | .identifier word =>
    match Property.ofKey? word with
    | some property => .ok (.proceed (afterKey selectors false {} property word))
    | none =>
      match Highlight.ofName? word with
      | some group => .ok (.proceed (ruleEnd selectors (.highlight group)))
      | none => .error (.unknownHighlight word)
  | found => .error (.unexpected .highlightOrProperties found)

/-- The key of a property. -/
def stepKey (selectors : Selectors) (braced : Bool) (style : PartialStyle) (token : Token) :
    Except Cause Step :=
  match token with
  | .identifier word =>
    match Property.ofKey? word with
    | none => .error (.unknownProperty word)
    | some property =>
      if style.specifies property then .error (.duplicateProperty property)
      else .ok (.proceed (afterKey selectors braced style property word))
  | found => .error (.unexpected .propertyName found)

/-- The value of a colour property. -/
def stepColor (selectors : Selectors) (braced : Bool) (style : PartialStyle)
    (setting : Color → Setting) (token : Token) : Except Cause Step :=
  match token with
  | .color text =>
    match Color.ofString text with
    | .ok color => .ok (.proceed (afterValue selectors braced style (setting color)))
    | .error reason => .error (.invalidColor reason)
  | found => .error (.unexpected .colorValue found)

/-- One name in the value of the attributes. -/
def stepAttribute (selectors : Selectors) (braced : Bool) (style : PartialStyle)
    (attrs : AttributeSet) (token : Token) : Except Cause Step :=
  match token with
  | .identifier word =>
    match attrs.insertName word.toList with
    | .ok more => .ok (.proceed (afterValue selectors braced style (.attr more)))
    | .error reason => .error (.invalidAttribute reason)
  | found => .error (.unexpected .attributeName found)

/-- The declaration of a style with one more setting. -/
def declarationOf (style : PartialStyle) (setting : Setting) : Declaration :=
  .properties ⟨style.set setting, style.isEmpty_set setting⟩

/-- The rule that a list of selectors and a declaration make. -/
def ruleOf (selectors : Selectors) (declaration : Declaration) : Rule :=
  ⟨selectors.val, declaration, selectors.property⟩

/-- The token after a value: another attribute, another property, or the end. -/
def stepAfterValue (selectors : Selectors) (braced : Bool) (style : PartialStyle)
    (setting : Setting) (token : Token) : Except Cause Step :=
  match token, setting, braced with
  | .mark .pipe, .attr attrs, _ => .ok (.proceed (attributeName selectors braced style attrs))
  | .mark .comma, _, _ => .ok (.proceed (key selectors braced (style.set setting)))
  | .mark .rightBrace, _, true =>
    .ok (.proceed (ruleEnd selectors (declarationOf style setting)))
  | .mark .semicolon, _, false => .ok (.close (ruleOf selectors (declarationOf style setting)))
  | found, _, true => .error (.unexpected .propertyEnd found)
  | found, _, false => .error (.unexpected .ruleEnd found)

/-- What a token other than the end of the input does at a stage. -/
def step : Stage → Token → Except Cause Step
  | between, token => stepKind token fun kind => afterKind [] ⟨kind, []⟩
  | selectorStart finished, token =>
    stepKind token fun kind => afterKind finished.val ⟨kind, []⟩
  | linkedKind finished chain combinator, token =>
    stepKind token fun kind =>
      afterKind finished { chain with links := chain.links ++ [(combinator, kind)] }
  | afterKind finished chain, token => stepAfterKind finished chain token
  | declaration selectors, token => stepDeclaration selectors token
  | key selectors braced style, token => stepKey selectors braced style token
  | afterKey selectors braced style property word, token =>
    match token with
    | .mark .colon => .ok (.proceed (valueOf selectors braced style property))
    | found => .error (.unexpected (.colonAfter word) found)
  | colorValue selectors braced style setting, token =>
    stepColor selectors braced style setting token
  | attributeName selectors braced style attrs, token =>
    stepAttribute selectors braced style attrs token
  | afterValue selectors braced style setting, token =>
    stepAfterValue selectors braced style setting token
  | ruleEnd selectors stated, token =>
    match token with
    | .mark .semicolon => .ok (.close (ruleOf selectors stated))
    | found => .error (.unexpected .ruleEnd found)

end Stage

end TreeStyle
