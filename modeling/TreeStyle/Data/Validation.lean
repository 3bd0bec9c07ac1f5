import TreeStyle.Data.FieldError

/-!
# Validated records

Records with texts for fields are validated by a library.  It is given the fields of a
record, each with a check of its own, and the data, and it answers with the texts that the
checks hand on, or with a report.  The library is a parameter (`RecordValidator`), and what
is relied on of it are its laws (`RecordValidator.Laws`):

* the check of a field runs on whatever is given for the field, and the text that it hands
  on is kept; a field that is not given has no text;
* a check that fails is reported at its field with the wording of the failure, in the order
  of the fields;
* keys of no field are forbidden and are reported after the fields, in their order;
* data that is no mapping is refused as a whole.

Main statement: `RecordValidator.standard_laws`.
-/

namespace TreeStyle

set_option autoImplicit false

/-! ## Fields -/

/-- A field that may be left out and is a text or nothing otherwise.  The check hands on
the text of what is given, or fails with a message. -/
structure TextField where
  name : String
  check : Value → Except String (Option String)

namespace TextField

/-- The text of a field among the entries of a mapping. -/
def read (field : TextField) (entries : List (Value × Value)) : Except String (Option String) :=
  match Mapping.lookup (.text field.name) entries with
  | none => .ok none
  | some value => field.check value

/-- The error of a field. -/
def error? (field : TextField) (entries : List (Value × Value)) : Option FieldError :=
  match field.read entries with
  | .ok _ => none
  | .error message => some ⟨[.key field.name], .refused message⟩

theorem error?_of_ok {field : TextField} {entries : List (Value × Value)} {text : Option String}
    (read : field.read entries = .ok text) : field.error? entries = none := by
  rw [error?, read]

theorem error?_of_error {field : TextField} {entries : List (Value × Value)} {message : String}
    (failed : field.read entries = .error message) :
    field.error? entries = some ⟨[.key field.name], .refused message⟩ := by
  rw [error?, failed]

/-- The error of a key that no field has, located as `segmentOf` says if it is no text. -/
def keyError? (segmentOf : Value → Segment) (fields : List TextField) :
    Value → Option FieldError
  | .text name => if name ∈ fields.map TextField.name then none else some ⟨[.key name], .unknownKey⟩
  | key => some ⟨[segmentOf key], .keyNotText⟩

/-- The errors of the fields and then those of the keys. -/
def errorsOf (segmentOf : Value → Segment) (fields : List TextField)
    (entries : List (Value × Value)) : List FieldError :=
  fields.filterMap (error? · entries) ++
    entries.filterMap fun entry => keyError? segmentOf fields entry.1

end TextField

/-! ## The library -/

/-- A library that validates records. -/
structure RecordValidator where
  /-- The texts of the fields by their names, or a report. -/
  validate : List TextField → Value → Except (List FieldError) (String → Option String)
  /-- The step to a key that is no text, as reports show it. -/
  segmentOf : Value → Segment

/-- What is relied on of a library that validates records, if the fields of a record have
names of their own. -/
structure RecordValidator.Laws (validator : RecordValidator) : Prop where
  /-- Where nothing is to be reported, each field has the text that its check hands on. -/
  accepts : ∀ {fields : List TextField} {entries : List (Value × Value)},
    (fields.map TextField.name).Nodup →
      TextField.errorsOf validator.segmentOf fields entries = [] →
        ∃ record, validator.validate fields (.mapping entries) = .ok record ∧
          ∀ field ∈ fields, field.read entries = .ok (record field.name)
  /-- Checks that fail are reported, and after them the keys that are forbidden. -/
  reports : ∀ {fields : List TextField} {entries : List (Value × Value)},
    (fields.map TextField.name).Nodup →
      TextField.errorsOf validator.segmentOf fields entries ≠ [] →
        validator.validate fields (.mapping entries) =
          .error (TextField.errorsOf validator.segmentOf fields entries)
  /-- Only mappings are records. -/
  refuses : ∀ {fields : List TextField} {value : Value},
    (∀ entries, value ≠ .mapping entries) →
      validator.validate fields value = .error [⟨[], .notMapping⟩]

/-! ## A library that keeps the laws -/

/-- The step to a key that is no text.  Numbers of at most 64 bits stand for themselves,
and truth values for zero and one. -/
def Value.segment : Value → Segment
  | .integer number =>
    if -(Nat.pow 2 63 : Int) ≤ number ∧ number < Nat.pow 2 63 then .place number
    else if (Value.integer number).isUnwritable then .key "<unprintable int object>"
    else .key (toString number)
  | .truth value => .place (if value then 1 else 0)
  | key => .key key.renderInner

/-- A field is found by its name. -/
theorem TextField.find?_name {fields : List TextField} (distinct : (fields.map name).Nodup)
    {field : TextField} (member : field ∈ fields) :
    (fields.find? fun other => other.name == field.name) = some field := by
  induction fields with
  | nil => cases member
  | cons first fields ih =>
    rw [List.map_cons, List.nodup_cons] at distinct
    rcases List.mem_cons.mp member with rfl | later
    · simp
    · have apart : first.name ≠ field.name := by
        intro same
        rw [same] at distinct
        exact distinct.1 (List.mem_map_of_mem later)
      simp [apart, ih distinct.2 later]

namespace RecordValidator

/-- Reads each field by its check. -/
def standard : RecordValidator where
  validate fields
    | .mapping entries =>
      match TextField.errorsOf Value.segment fields entries with
      | [] => .ok fun name =>
        (fields.find? fun field => field.name == name).bind fun field =>
          (field.read entries).toOption.join
      | errors => .error errors
    | _ => .error [⟨[], .notMapping⟩]
  segmentOf := Value.segment

theorem standard_laws : standard.Laws where
  accepts := by
    intro fields entries distinct clean
    simp only [standard] at clean ⊢
    rw [clean]
    refine ⟨_, rfl, fun field member => ?_⟩
    rw [TextField.find?_name distinct member, Option.bind_some]
    have kept := (List.filterMap_eq_nil_iff.mp (List.append_eq_nil_iff.mp clean).1) field member
    cases read : field.read entries with
    | ok text => rfl
    | error message =>
      rw [TextField.error?_of_error read] at kept
      cases kept
  reports := by
    intro fields entries _ failing
    simp only [standard] at failing ⊢
  refuses := by
    intro fields value other
    cases value with
    | mapping entries => exact absurd rfl (other entries)
    | _ => rfl

end RecordValidator

end TreeStyle
