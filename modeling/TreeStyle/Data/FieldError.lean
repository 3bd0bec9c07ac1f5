import TreeStyle.Data.Value

/-!
# Errors in structured data

Data is checked field by field, and every field that fails is reported, with the
way to it from the root and the reason.
-/

namespace TreeStyle

set_option autoImplicit false

/-- A step on the way to a field. -/
inductive Segment where
  | key (name : String)
  | place (number : Int)
  deriving DecidableEq, Repr

/-- Why a field fails. -/
inductive FieldReason where
  | missing
  | notText
  | malformedText
  | emptyText
  | notNumber
  | malformedNumber
  | numberTooLong
  | fractionalNumber
  | infiniteNumber
  | notList
  | notMapping
  | unknownKey
  | keyNotText
  /-- The value was read and refused, with a wording of its own. -/
  | refused (message : String)
  deriving DecidableEq, Repr

namespace FieldReason

/-- The name of a reason. -/
def name : FieldReason → String
  | missing => "missing"
  | notText => "string_type"
  | malformedText => "string_unicode"
  | emptyText => "string_too_short"
  | notNumber => "int_type"
  | malformedNumber => "int_parsing"
  | numberTooLong => "int_parsing_size"
  | fractionalNumber => "int_from_float"
  | infiniteNumber => "finite_number"
  | notList => "list_type"
  | notMapping => "model_type"
  | unknownKey => "extra_forbidden"
  | keyNotText => "invalid_key"
  | refused _ => "value_error"

/-- The wording of a refusal. -/
def detail? : FieldReason → Option String
  | refused message => some ("Value error, " ++ message)
  | _ => none

end FieldReason

/-- A field that fails: the way to it, and why. -/
structure FieldError where
  location : List Segment
  reason : FieldReason
  deriving DecidableEq, Repr

namespace FieldError

/-- The error of a field one step further from the root. -/
def under (segment : Segment) (error : FieldError) : FieldError :=
  { error with location := segment :: error.location }

/-- The first line of a report on data of the given schema. -/
def summary (schema : String) (errors : List FieldError) : String :=
  s!"{errors.length} validation error" ++ (if errors.length = 1 then "" else "s") ++
    " for " ++ schema

end FieldError

/-- The errors in an outcome, none if it is a part. -/
def reported {Part : Type} : Except (List FieldError) Part → List FieldError
  | .ok _ => []
  | .error errors => errors

end TreeStyle
