import TreeStyle.Attribute
import TreeStyle.Color
import TreeStyle.Highlight
import TreeStyle.Style
import TreeStyle.Stylesheet.Token
import TreeStyle.Text.CodePoint
import TreeStyle.Text.Position
import TreeStyle.Text.Utf8

/-!
# Errors in a stylesheet

Reading a stylesheet stops at the first error.  While it reads, the library
notes the cause of an error and the text from the offending place on, a fault;
against the whole source this becomes an error with a position.
-/

namespace TreeStyle

set_option autoImplicit false

/-! ## Causes -/

/-- What should have stood where something else was found. -/
inductive Expectation where
  | nodeKind
  | selectorEnd
  | highlightOrProperties
  | propertyName
  | colonAfter (key : String)
  | colorValue
  | attributeName
  | propertyEnd
  | ruleEnd
  deriving DecidableEq, Repr

/-- The wording of an expectation. -/
def Expectation.message : Expectation → String
  | nodeKind => "node kind"
  | selectorEnd => "',', a combinator or ':' after selector"
  | highlightOrProperties => "highlight group or properties"
  | propertyName => "property name"
  | colonAfter key => "':' after " ++ Text.quote key
  | colorValue => "color"
  | attributeName => "attribute name"
  | propertyEnd => "',' or '\x7d' after property"
  | ruleEnd => "';' at end of rule"

/-- Why a source is no stylesheet. -/
inductive Cause where
  /-- A character that starts no token. -/
  | strayCharacter (character : Char)
  /-- A surrogate where a token should start. -/
  | straySurrogate (number : Fin 0x800)
  /-- A token in the place of another. -/
  | unexpected (expected : Expectation) (found : Token)
  /-- The source ends inside a rule. -/
  | unterminated
  | unknownHighlight (name : String)
  | unknownProperty (key : String)
  | duplicateProperty (property : Property)
  | invalidColor (error : ColorError)
  | invalidAttribute (error : AttributeError)
  /-- The source is no text. -/
  | undecodable (fault : Text.Utf8.Fault)
  deriving DecidableEq, Repr

/-- The kinds of parse errors. -/
inductive ParseErrorKind where
  | unexpectedToken | unterminatedRule | unknownHighlightName | invalidColorLiteral
  | invalidAttribute | duplicateProperty
  deriving DecidableEq, Repr

/-- The name of a kind. -/
def ParseErrorKind.name : ParseErrorKind → String
  | unexpectedToken => "unexpected-token"
  | unterminatedRule => "unterminated-rule"
  | unknownHighlightName => "unknown-highlight-name"
  | invalidColorLiteral => "invalid-color-literal"
  | invalidAttribute => "invalid-attribute"
  | duplicateProperty => "duplicate-property"

/-- The kind of a cause. -/
def Cause.kind : Cause → ParseErrorKind
  | strayCharacter _ => .unexpectedToken
  | straySurrogate _ => .unexpectedToken
  | unexpected _ _ => .unexpectedToken
  | unterminated => .unterminatedRule
  | unknownHighlight _ => .unknownHighlightName
  | unknownProperty _ => .unexpectedToken
  | duplicateProperty _ => .duplicateProperty
  | invalidColor _ => .invalidColorLiteral
  | invalidAttribute _ => .invalidAttribute
  | undecodable _ => .unexpectedToken

/-! ## Faults and errors -/

/-- A cause, the text from the offending place on, and the text from the first
token of the open rule on. -/
structure Fault where
  cause : Cause
  start : List Char
  opened : List Char
  deriving DecidableEq, Repr

/-- An error in a source. -/
structure ParseError where
  cause : Cause
  position : Text.Position
  /-- The line on which the open rule starts. -/
  ruleLine : Nat
  deriving DecidableEq, Repr

namespace ParseError

/-- The place in a source at which the given remainder of it starts. -/
def place (source remainder : List Char) : Text.Position :=
  Text.Position.after (source.take (source.length - remainder.length))

/-- A fault against the source it was found in. -/
def ofFault (source : List Char) (fault : Fault) : ParseError where
  cause := fault.cause
  position := place source fault.start
  ruleLine := (place source fault.opened).line

/-- The error of a source that is no text, placed at its start. -/
def ofUndecodable (fault : Text.Utf8.Fault) : ParseError where
  cause := .undecodable fault
  position := Text.Position.start
  ruleLine := 1

def kind (error : ParseError) : ParseErrorKind := error.cause.kind

/-- The wording of an error, without its place. -/
def message (error : ParseError) : String :=
  match error.cause with
  | .strayCharacter character =>
    "unexpected character " ++ Text.quote (String.singleton character)
  | .straySurrogate number =>
    "unexpected character '" ++ Text.CodePoint.escape number ++ "'"
  | .unexpected expected found => "expected " ++ expected.message ++ ", found " ++ found.describe
  | .unterminated => s!"end of input inside rule starting on line {error.ruleLine}"
  | .unknownHighlight name => Highlight.unknownMessage name
  | .unknownProperty key => "unknown property " ++ Text.quote key ++ " (expected fg, bg or attr)"
  | .duplicateProperty property =>
    "property " ++ Text.quote property.name ++ " given more than once"
  | .invalidColor reason => reason.message
  | .invalidAttribute reason => reason.message
  | .undecodable fault => "stylesheet is not valid UTF-8: " ++ fault.message

/-- An error on one line: its place, its kind and its wording. -/
def render (error : ParseError) : String :=
  s!"{error.position.line}:{error.position.column}: " ++ error.kind.name ++ ": " ++ error.message

end ParseError

end TreeStyle
