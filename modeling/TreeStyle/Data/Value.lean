import TreeStyle.Data.Moment
import TreeStyle.Decimal.Digits
import TreeStyle.Decimal.Shortest
import TreeStyle.Text.Quoted

/-!
# Structured data

Base themes and tree descriptions arrive as structured data: nothing, truth
values, numbers, dates, texts, bytes, lists, tuples, sets, and mappings whose entries
keep their order.  The items of a set are listed in the order in which it hands them
out.  A key that is given twice keeps its first place and its last value.

A value has a text, in which texts that stand inside of another value are
quoted.  An integer with too many digits has none, and so has a value around it.

Main statements: `Mapping.lookup_put_self`, `Mapping.lookup_put_other` and
`Value.text?_text`.
-/

namespace TreeStyle

set_option autoImplicit false

/-- A piece of structured data. -/
inductive Value where
  | nothing
  | truth (value : Bool)
  | integer (value : Int)
  | decimal (value : Decimal.Binary64)
  | moment (value : Moment)
  | text (value : String)
  | bytes (content : List UInt8)
  | list (items : List Value)
  | tuple (items : List Value)
  | set (items : List Value)
  | mapping (entries : List (Value × Value))
  deriving Repr

namespace Value

mutual

/-- Whether two values are the same, part by part and in order. -/
def isSame : Value → Value → Bool
  | nothing, nothing => true
  | truth left, truth right => left == right
  | integer left, integer right => left == right
  | decimal left, decimal right => left == right
  | moment left, moment right => left == right
  | text left, text right => left == right
  | bytes left, bytes right => left == right
  | list left, list right => areSameItems left right
  | tuple left, tuple right => areSameItems left right
  | set left, set right => areSameItems left right
  | mapping left, mapping right => areSameEntries left right
  | _, _ => false

/-- Whether two lists of items are the same. -/
def areSameItems : List Value → List Value → Bool
  | [], [] => true
  | left :: lefts, right :: rights => left.isSame right && areSameItems lefts rights
  | _, _ => false

/-- Whether two mappings have the same entries, in the same order. -/
def areSameEntries : List (Value × Value) → List (Value × Value) → Bool
  | [], [] => true
  | (key, left) :: lefts, (other, right) :: rights =>
    key.isSame other && left.isSame right && areSameEntries lefts rights
  | _, _ => false

end

instance : BEq Value := ⟨isSame⟩

mutual

/-- The text of a value inside of another one. -/
def renderInner : Value → String
  | nothing => "None"
  | truth value => if value then "True" else "False"
  | integer value => toString value
  | decimal value => value.render
  | moment value => value.renderInner
  | text value => Text.quote value
  | bytes content => Text.quoteBytes content
  | list items => "[" ++ ", ".intercalate (renderItems items) ++ "]"
  | tuple [item] => "(" ++ item.renderInner ++ ",)"
  | tuple items => "(" ++ ", ".intercalate (renderItems items) ++ ")"
  | set [] => "set()"
  | set items => "\x7b" ++ ", ".intercalate (renderItems items) ++ "\x7d"
  | mapping entries => "\x7b" ++ ", ".intercalate (renderEntries entries) ++ "\x7d"

/-- The texts of items. -/
def renderItems : List Value → List String
  | [] => []
  | item :: rest => renderInner item :: renderItems rest

/-- The texts of the entries of a mapping. -/
def renderEntries : List (Value × Value) → List String
  | [] => []
  | (key, value) :: rest => (renderInner key ++ ": " ++ renderInner value) :: renderEntries rest

end

/-- The text of a value; a text stands for itself. -/
def render : Value → String
  | text value => value
  | moment value => value.render
  | value => value.renderInner

mutual

/-- Whether an integer with too many digits stands in a value. -/
def isUnwritable : Value → Bool
  | integer value => Decimal.hasTooManyDigits value.natAbs
  | list items | tuple items | set items => anyUnwritable items
  | mapping entries => anyEntryUnwritable entries
  | _ => false

/-- Whether an integer with too many digits stands in one of the items. -/
def anyUnwritable : List Value → Bool
  | [] => false
  | item :: rest => item.isUnwritable || anyUnwritable rest

/-- Whether an integer with too many digits stands in one of the entries. -/
def anyEntryUnwritable : List (Value × Value) → Bool
  | [] => false
  | (key, value) :: rest => key.isUnwritable || value.isUnwritable || anyEntryUnwritable rest

end

/-- The text of a value, or why it has none. -/
def text? (value : Value) : Except String String :=
  if value.isUnwritable then .error Decimal.unwritableMessage else .ok value.render

/-- A text always has a text. -/
theorem text?_text (value : String) : (text value).text? = .ok value := by
  simp [text?, isUnwritable, render]

/-- Whether a value is nothing, false, zero, or without content. -/
def isVacant : Value → Bool
  | nothing => true
  | truth value => !value
  | integer value => value == 0
  | decimal value => value.isZero
  | moment _ => false
  | text value => value == ""
  | bytes content => content.isEmpty
  | list items | tuple items | set items => items.isEmpty
  | mapping entries => entries.isEmpty

end Value

/-! ## Entries in order -/

namespace Mapping

/-- The value under a key. -/
def lookup {Key Entry : Type} [BEq Key] (key : Key) (entries : List (Key × Entry)) :
    Option Entry :=
  (entries.find? fun entry => entry.1 == key).map Prod.snd

/-- The entries with a value under a key, in the place of the old one if there was one. -/
def put {Key Entry : Type} [BEq Key] (key : Key) (value : Entry) :
    List (Key × Entry) → List (Key × Entry)
  | [] => [(key, value)]
  | entry :: rest =>
    if entry.1 == key then (entry.1, value) :: rest else entry :: put key value rest

theorem lookup_put_self {Key Entry : Type} [BEq Key] [LawfulBEq Key] (key : Key) (value : Entry)
    (entries : List (Key × Entry)) : lookup key (put key value entries) = some value := by
  induction entries with
  | nil => simp [lookup, put]
  | cons entry rest ih =>
    by_cases same : entry.1 = key
    · simp [lookup, put, same]
    · simpa [lookup, put, same] using ih

theorem lookup_put_other {Key Entry : Type} [BEq Key] [LawfulBEq Key] {key other : Key}
    (value : Entry) (entries : List (Key × Entry)) (different : other ≠ key) :
    lookup other (put key value entries) = lookup other entries := by
  have unequal : (key == other) = false := by simpa using fun equal => different equal.symm
  induction entries with
  | nil => simp [lookup, put, unequal]
  | cons entry rest ih =>
    by_cases same : entry.1 = key
    · simp [lookup, put, same, unequal]
    · have kept : put key value (entry :: rest) = entry :: put key value rest := by
        rw [put, if_neg (by simpa using same)]
      rw [kept]
      by_cases found : entry.1 = other
      · simp [lookup, found]
      · simpa [lookup, found] using ih

end Mapping

end TreeStyle
