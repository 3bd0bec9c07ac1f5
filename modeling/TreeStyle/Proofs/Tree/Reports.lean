import Mathlib.Data.List.Lex
import Mathlib.Data.List.Sort
import TreeStyle.Data.FieldError
import TreeStyle.Proofs.Values.Steps

/-!
# Reports on descriptions

A description is judged rightly if the outcome is the part that it states or a report on
what fails in it (`Judges`).  A report has every failure, and each of them once, in the
order of the ways to them (`Reports`): field by field and place by place, depth first.

What fails in a part of the data fails in the whole, with the step to the part in front of
the way (`FailsUnder`).  This keeps the order, so reports on parts can be put together.

Main statements: `Reports.unique`, `Judges.of_errors` and `Judges.under`.
-/

namespace TreeStyle

set_option autoImplicit false

/-! ## The order of errors -/

/-- The fields of a node in the order in which they are checked. -/
def Shape.fieldOrder : List String := ["kind", "start_byte", "end_byte", "children"]

/-- The order of the steps from a node: by the order of the fields, or by the places of the
children. -/
inductive Segment.Before : Segment → Segment → Prop where
  | key {name other : String}
      (earlier : Shape.fieldOrder.idxOf name < Shape.fieldOrder.idxOf other) :
      Before (.key name) (.key other)
  | place {number other : Int} (less : number < other) : Before (.place number) (.place other)

/-- The order of errors by their ways, depth first. -/
def FieldError.Before (error other : FieldError) : Prop :=
  List.Lex Segment.Before error.location other.location

instance : Std.Asymm Segment.Before where
  asymm first second before after := by
    cases before with
    | key earlier =>
      cases after with
      | key later => exact Nat.lt_asymm earlier later
    | place less =>
      cases after with
      | place more => omega

instance : Std.Asymm FieldError.Before where
  asymm error other := (List.Lex.asymm Segment.Before).asymm error.location other.location

/-- A report on what fails: every failure, and each of them once, in order. -/
structure Reports (fails : FieldError → Prop) (errors : List FieldError) : Prop where
  inhabited : errors ≠ []
  sorted : errors.Pairwise FieldError.Before
  mem_iff : ∀ error, error ∈ errors ↔ fails error

/-- There is one report on what fails. -/
theorem Reports.unique {fails : FieldError → Prop} {errors others : List FieldError}
    (reports : Reports fails errors) (also : Reports fails others) : errors = others :=
  reports.sorted.eq_of_mem_iff also.sorted fun error =>
    (reports.mem_iff error).trans (also.mem_iff error).symm

/-- A failure at a step is reported with the step in front of the way to it. -/
def FailsUnder (segment : Segment) (fails : FieldError → Prop) (error : FieldError) : Prop :=
  ∃ inner, fails inner ∧ error = inner.under segment

/-- Errors in order stay in order with a step in front. -/
theorem sorted_map_under {errors : List FieldError} (sorted : errors.Pairwise FieldError.Before)
    (segment : Segment) : (errors.map (FieldError.under segment)).Pairwise FieldError.Before :=
  List.pairwise_map.mpr (sorted.imp .cons)

/-! ## Verdicts -/

/-- Whether an outcome is right about data: it is the part that the data states, or a report
on what fails in it. -/
structure Judges {Part : Type} (states : Part → Prop) (fails : FieldError → Prop)
    (outcome : Except (List FieldError) Part) : Prop where
  eq_ok_iff : ∀ {part}, outcome = .ok part ↔ states part
  clean : ∀ {part}, outcome = .ok part → ∀ error, ¬fails error
  reports : ∀ {errors}, outcome = .error errors → Reports fails errors

namespace Judges

variable {Part : Type} {states : Part → Prop} {fails : FieldError → Prop}
  {outcome : Except (List FieldError) Part} (judges : Judges states fails outcome)
include judges

theorem mem_reported_iff {error : FieldError} : error ∈ reported outcome ↔ fails error := by
  cases made : outcome with
  | ok part => exact iff_of_false List.not_mem_nil (judges.clean made error)
  | error errors => exact (judges.reports made).mem_iff error

theorem reported_eq_nil_iff : reported outcome = [] ↔ ∃ part, outcome = .ok part := by
  cases made : outcome with
  | ok part => exact iff_of_true rfl ⟨part, rfl⟩
  | error errors => exact iff_of_false (judges.reports made).inhabited nofun

theorem sorted_reported : (reported outcome).Pairwise FieldError.Before := by
  cases made : outcome with
  | ok part => exact .nil
  | error errors => exact (judges.reports made).sorted

theorem mem_map_under_iff {segment : Segment} {error : FieldError} :
    error ∈ (reported outcome).map (FieldError.under segment) ↔
      FailsUnder segment fails error := by
  simp only [List.mem_map, judges.mem_reported_iff, FailsUnder, eq_comm]

/-- **What is right about a part is right in the whole**, with the step to the part in front
of the ways. -/
theorem under (segment : Segment) :
    Judges states (FailsUnder segment fails)
      (outcome.mapError (List.map (FieldError.under segment))) := by
  refine ⟨mapError_eq_ok_iff.trans judges.eq_ok_iff, ?_, ?_⟩
  · rintro part made _ ⟨inner, inside, -⟩
    exact judges.clean (mapError_eq_ok_iff.mp made) inner inside
  · intro errors failed
    obtain ⟨inner, made, rfl⟩ := mapError_eq_error_iff.mp failed
    have reports := judges.reports made
    refine ⟨List.map_eq_nil_iff.not.mpr reports.inhabited, sorted_map_under reports.sorted segment,
      fun error => ?_⟩
    rw [← judges.mem_map_under_iff, made]
    rfl

theorem congr {other : Part → Prop} {also : FieldError → Prop}
    (same : ∀ part, states part ↔ other part) (alike : ∀ error, fails error ↔ also error) :
    Judges other also outcome := by
  obtain rfl : states = other := funext fun part => propext (same part)
  obtain rfl : fails = also := funext fun error => propext (alike error)
  exact judges

end Judges

/-- Data that states nothing and fails in one way is refused for it. -/
theorem Judges.of_only {Part : Type} {states : Part → Prop} {fails : FieldError → Prop}
    {error : FieldError} (unstated : ∀ part, ¬states part)
    (only : ∀ other, fails other ↔ other = error) :
    Judges states fails (.error [error] : Except (List FieldError) Part) := by
  refine ⟨⟨nofun, fun stated => absurd stated (unstated _)⟩, nofun, ?_⟩
  rintro _ ⟨⟩
  refine ⟨List.cons_ne_nil _ _, List.pairwise_singleton _ _, fun other => ?_⟩
  rw [List.mem_singleton, only]

/-- An outcome is right if it is the part that is stated where a list of all failures is
empty, and the list otherwise. -/
theorem Judges.of_errors {Part : Type} {states : Part → Prop} {fails : FieldError → Prop}
    {outcome : Except (List FieldError) Part} {errors : List FieldError}
    (made : errors = [] → ∃ part, outcome = .ok part ∧ states part)
    (refused : errors ≠ [] → outcome = .error errors)
    (complete : ∀ {part}, states part → outcome = .ok part)
    (mem_iff : ∀ error, error ∈ errors ↔ fails error)
    (sorted : errors.Pairwise FieldError.Before) : Judges states fails outcome := by
  by_cases empty : errors = []
  · obtain ⟨part, rfl, stated⟩ := made empty
    refine ⟨⟨?_, complete⟩, ?_, nofun⟩
    · rintro ⟨⟩
      exact stated
    · intro _ _ error fails
      rw [← mem_iff, empty] at fails
      cases fails
  · cases refused empty
    refine ⟨⟨nofun, complete⟩, nofun, ?_⟩
    rintro _ ⟨⟩
    exact ⟨empty, sorted, mem_iff⟩

end TreeStyle
