import TreeStyle.Data.FieldError
import TreeStyle.Decimal.IntegerText
import TreeStyle.Text.Utf8
import TreeStyle.Tree.Forest
import TreeStyle.Yaml.Fault

/-!
# Trees from structured data

A tree is described by nested mappings: the kind of a node, optionally its range of bytes
and its children.  Other keys are ignored.

Descriptions are validated by a library, which is a parameter (`ShapeValidator`).  It reads
some values as texts, integers and lists that are of another sort themselves, and what is
relied on of it are its laws (`ShapeValidator.Laws`):

* texts, and bytes that are a text in UTF-8, are read as texts;
* lists, tuples and sets are read as lists;
* a mapping is read as a node if its kind is read as a text that is not empty, its positions
  as integers, unless they are not given, and its children as a list of descriptions, unless
  they are not given;
* otherwise all fields that fail are reported, in the order kind, start_byte, end_byte,
  children, and the children depth first;
* data that is no mapping is refused.

Main statement: `ShapeValidator.standard_laws`.
-/

namespace TreeStyle

set_option autoImplicit false

/-- Why data is no tree. -/
inductive TreeError where
  | fileMissing (name : String)
  /-- The system does not let the file be read. -/
  | fileRefused (reason : String)
  | undecodable (path : String) (fault : String)
  | malformed
  /-- A scalar that states nothing. -/
  | unreadable (fault : Yaml.ScalarFault)
  | notMapping
  | invalid (errors : List FieldError)
  deriving Repr

namespace TreeError

/-- The wording of an error, the report on the description left out. -/
def message : TreeError → String
  | fileMissing name => "File not found: " ++ name
  | fileRefused reason => reason
  | undecodable path fault => "Tree file " ++ path ++ " is not valid UTF-8: " ++ fault
  | malformed => "Failed to parse YAML"
  | unreadable fault => fault.message
  | notMapping => "Tree file must contain a mapping at the root level"
  | invalid _ => "Invalid tree description"

/-- The fields that fail. -/
def fieldErrors : TreeError → List FieldError
  | invalid errors => errors
  | _ => []

/-- The wording of an error with the first line of the report on the description. -/
def headline (error : TreeError) : String :=
  match error with
  | invalid errors => error.message ++ ": " ++ FieldError.summary "TreeNodeSchema" errors
  | _ => error.message

end TreeError

/-! ## What is read as what -/

namespace Value

/-- The text that a value is read as. -/
inductive Spells : Value → String → Prop where
  | text (text : String) : Spells (.text text) text
  | bytes {content : List UInt8} {text : List Char}
      (decoded : Text.Utf8.decode content = .ok text) :
      Spells (.bytes content) (String.ofList text)

/-- The items of a value that is read as a list. -/
inductive Lists : Value → List Value → Prop where
  | list (items : List Value) : Lists (.list items) items
  | tuple (items : List Value) : Lists (.tuple items) items
  | set (items : List Value) : Lists (.set items) items

end Value

/-- How values are read where a field asks for a text, an integer or a list. -/
structure FieldReadings where
  text : Value → Except FieldReason String
  integer : Value → Except FieldReason Int
  items : Value → Except FieldReason (List Value)

/-! ## Fields -/

namespace FieldReadings

variable (readings : FieldReadings)

/-- The kind of a node, a text that is not empty. -/
def kind (entries : List (Value × Value)) : Except FieldReason String :=
  match Mapping.lookup (.text "kind") entries with
  | none => .error .missing
  | some value => do
    let kind ← readings.text value
    if kind = "" then throw .emptyText else return kind

/-- A byte position; zero if it is not given. -/
def byte (key : String) (entries : List (Value × Value)) : Except FieldReason Int :=
  match Mapping.lookup (.text key) entries with
  | none => .ok 0
  | some value => readings.integer value

end FieldReadings

namespace Shape

/-- The part at a place with the parts behind it, or the errors of all. -/
def join {Part : Type} (place : Nat) (first : Except (List FieldError) Part)
    (rest : Except (List FieldError) (List Part)) : Except (List FieldError) (List Part) :=
  match first, rest with
  | .ok part, .ok parts => .ok (part :: parts)
  | .ok _, .error errors => .error errors
  | .error errors, .ok _ => .error (errors.map (FieldError.under (.place place)))
  | .error errors, .error more =>
    .error (errors.map (FieldError.under (.place place)) ++ more)

/-- The parts in a list of outcomes that are counted from a place on, or all their errors. -/
def collect {Part : Type} (place : Nat) :
    List (Except (List FieldError) Part) → Except (List FieldError) (List Part)
  | [] => .ok []
  | first :: rest => join place first (collect (place + 1) rest)

/-- The children of a node from what they are read as; none if they are not given. -/
def childrenOf :
    Option (Except FieldReason (List (Except (List FieldError) Shape))) →
      Except (List FieldError) (List Shape)
  | none => .ok []
  | some (.error reason) => .error [⟨[.key "children"], reason⟩]
  | some (.ok outcomes) =>
    (collect 0 outcomes).mapError (List.map (FieldError.under (.key "children")))

/-- The errors of a field under a key. -/
def fieldErrors {Field : Type} (key : String) : Except FieldReason Field → List FieldError
  | .ok _ => []
  | .error reason => [⟨[.key key], reason⟩]

/-- A node from its fields, or their errors in order. -/
def ofFields (kind : Except FieldReason String) (startByte endByte : Except FieldReason Int)
    (children : Except (List FieldError) (List Shape)) : Except (List FieldError) Shape :=
  match kind, startByte, endByte, children with
  | .ok kind, .ok startByte, .ok endByte, .ok children =>
    .ok (.node kind startByte endByte children)
  | kind, startByte, endByte, children =>
    .error (fieldErrors "kind" kind ++ fieldErrors "start_byte" startByte ++
      fieldErrors "end_byte" endByte ++ reported children)

end Shape

/-! ## The library -/

/-- A library that validates descriptions of nodes. -/
structure ShapeValidator extends FieldReadings where
  /-- The shape that a value describes, or a report. -/
  validate : Value → Except (List FieldError) Shape

namespace ShapeValidator

/-- The children that the entries of a node describe. -/
def children (validator : ShapeValidator) (entries : List (Value × Value)) :
    Except (List FieldError) (List Shape) :=
  Shape.childrenOf ((Mapping.lookup (.text "children") entries).map fun value =>
    (validator.items value).map (List.map validator.validate))

/-- What is relied on of a library that validates descriptions. -/
structure Laws (validator : ShapeValidator) : Prop where
  text_eq_ok_iff : ∀ {value : Value} {text : String},
    validator.text value = .ok text ↔ value.Spells text
  items_eq_ok_iff : ∀ {value : Value} {items : List Value},
    validator.items value = .ok items ↔ value.Lists items
  /-- A mapping is a node if all its fields are read, and otherwise they are reported. -/
  validate_mapping : ∀ entries : List (Value × Value),
    validator.validate (.mapping entries) =
      Shape.ofFields (validator.kind entries) (validator.byte "start_byte" entries)
        (validator.byte "end_byte" entries) (validator.children entries)
  /-- Only mappings are nodes. -/
  validate_noMapping : ∀ {value : Value}, (∀ entries, value ≠ .mapping entries) →
    validator.validate value = .error [⟨[], .notMapping⟩]

end ShapeValidator

/-! ## Trees -/

/-- The tree that a description states, in a forest of its own. -/
def Forest.ofDescription (validator : ShapeValidator) (description : Value) :
    Except TreeError Construction :=
  match validator.validate description with
  | .ok shape => .ok (Forest.empty.plant shape)
  | .error errors => .error (.invalid errors)

/-- The tree that a document states, which has to be a mapping. -/
def Forest.ofDocument (validator : ShapeValidator) (document : Value) :
    Except TreeError Construction :=
  match document with
  | .mapping entries => Forest.ofDescription validator (.mapping entries)
  | _ => .error .notMapping

/-! ## A library that keeps the laws -/

namespace FieldReadings

/-- A text from a text or from the bytes of one. -/
def standardText : Value → Except FieldReason String
  | .text text => .ok text
  | .bytes content =>
    match Text.Utf8.decode content with
    | .ok text => .ok (String.ofList text)
    | .error _ => .error .malformedText
  | _ => .error .notText

/-- An integer from its numeral. -/
def ofNumeral (numeral : List Char) : Except FieldReason Int :=
  (Decimal.readInteger numeral).mapError fun fault =>
    match fault with
    | .malformed => .malformedNumber
    | .tooLong => .numberTooLong

/-- An integer from an integer, a truth value, a number without a fraction, or the text or
the bytes of a numeral. -/
def standardInteger : Value → Except FieldReason Int
  | .integer value => .ok value
  | .truth value => .ok (if value then 1 else 0)
  | .decimal value =>
    match value.toInt?, value with
    | some integer, _ =>
      if integer.natAbs < Nat.pow 2 63 then .ok integer else .error .numberTooLong
    | none, .finite _ _ _ => .error .fractionalNumber
    | none, _ => .error .infiniteNumber
  | .text text => ofNumeral text.toList
  | .bytes content =>
    match Text.Utf8.decode content with
    | .ok text => ofNumeral text
    | .error _ => .error .malformedNumber
  | _ => .error .notNumber

/-- The items of a list, a tuple or a set. -/
def standardItems : Value → Except FieldReason (List Value)
  | .list items | .tuple items | .set items => .ok items
  | _ => .error .notList

/-- Reads integers from all values that state one in some form. -/
def standard : FieldReadings := ⟨standardText, standardInteger, standardItems⟩

end FieldReadings

namespace Shape

mutual

/-- The shape that a value describes, or every field that fails. -/
def ofValue : Value → Except (List FieldError) Shape
  | .mapping entries =>
    ofFields (FieldReadings.standard.kind entries)
      (FieldReadings.standard.byte "start_byte" entries)
      (FieldReadings.standard.byte "end_byte" entries) (childrenOf (ofChildren entries))
  | _ => .error [⟨[], .notMapping⟩]

/-- What the children among the entries of a node are read as; the first entry under the
key counts. -/
def ofChildren : List (Value × Value) →
    Option (Except FieldReason (List (Except (List FieldError) Shape)))
  | [] => none
  | (key, value) :: rest =>
    if key == .text "children" then
      match value with
      | .list items | .tuple items | .set items => some (.ok (ofItems items))
      | _ => some (.error .notList)
    else ofChildren rest

/-- What items are read as. -/
def ofItems : List Value → List (Except (List FieldError) Shape)
  | [] => []
  | item :: rest => ofValue item :: ofItems rest

end

theorem ofItems_eq (items : List Value) : ofItems items = items.map ofValue := by
  induction items with
  | nil => rw [ofItems, List.map_nil]
  | cons item rest ih => rw [ofItems, ih, List.map_cons]

theorem ofChildren_eq (entries : List (Value × Value)) :
    ofChildren entries = (Mapping.lookup (.text "children") entries).map fun value =>
      (FieldReadings.standard.items value).map (List.map ofValue) := by
  induction entries with
  | nil =>
    rw [ofChildren]
    rfl
  | cons entry rest ih =>
    obtain ⟨key, value⟩ := entry
    unfold ofChildren
    rw [Mapping.lookup, List.find?_cons]
    cases key == Value.text "children" with
    | true =>
      rw [if_pos rfl]
      cases value <;> simp only [ofItems_eq] <;> rfl
    | false =>
      rw [if_neg Bool.false_ne_true, ih]
      rfl

end Shape

namespace ShapeValidator

/-- Validates descriptions from the top down. -/
def standard : ShapeValidator := { FieldReadings.standard with validate := Shape.ofValue }

theorem standard_laws : standard.Laws where
  text_eq_ok_iff := by
    intro value text
    constructor
    · intro read
      cases value with
      | text =>
        cases read
        exact .text text
      | bytes content =>
        simp only [standard, FieldReadings.standard, FieldReadings.standardText] at read
        split at read
        · next decoded =>
          cases read
          exact .bytes decoded
        · cases read
      | _ => cases read
    · rintro (_ | decoded)
      · rfl
      · simp only [standard, FieldReadings.standard, FieldReadings.standardText, decoded]
  items_eq_ok_iff := by
    intro value items
    constructor
    · intro read
      cases value with
      | list =>
        cases read
        exact .list items
      | tuple =>
        cases read
        exact .tuple items
      | set =>
        cases read
        exact .set items
      | _ => cases read
    · rintro ⟨⟩ <;> rfl
  validate_mapping := by
    intro entries
    change Shape.ofValue (.mapping entries) = _
    rw [Shape.ofValue, Shape.ofChildren_eq]
    rfl
  validate_noMapping := by
    intro value noMapping
    change Shape.ofValue value = _
    rw [Shape.ofValue]
    exact noMapping

end ShapeValidator

end TreeStyle
