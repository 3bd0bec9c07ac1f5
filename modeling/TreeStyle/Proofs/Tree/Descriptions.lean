import TreeStyle.Proofs.Tree.Listings
import TreeStyle.Proofs.Tree.Reports
import TreeStyle.Proofs.Values.Steps
import TreeStyle.Tree.Description

/-!
# Trees from descriptions

A value describes a shape if it is a mapping with a kind that is not empty, with positions
that are absent or acceptable as integers, and with children that are absent or a list of
descriptions (`Shape.Describes`).  The kind may be the bytes of a text, and the list a tuple
or a set.  Other keys do not matter.  Everything that stands in the way of this is a failure
at a field (`Shape.Fails`).

By a validator that keeps the laws, a value is judged by what its parts are judged by: a
node by its fields, a list by its first item and the others.  So a description is read as
the shape that it describes, and else every failure is reported, in order
(`Shape.judges_validate`).  The tree of the shape is then planted as a whole.

Main statements: `Shape.judges_validate` and `Forest.ofDescription_builds_or_reports`.
-/

namespace TreeStyle

set_option autoImplicit false

namespace Shape

/-! ## Fields -/

/-- The kind that a field states. -/
inductive StatesKind : Option Value → String → Prop where
  | spelled {value : Value} {kind : String} (spells : value.Spells kind) (inhabited : kind ≠ "") :
      StatesKind (some value) kind

/-- The position that a field states: zero if it is absent, and otherwise the integer that
its value is accepted as. -/
inductive StatesByte (readings : FieldReadings) : Option Value → Int → Prop where
  | absent : StatesByte readings none 0
  | accepted {value : Value} {byte : Int} (accepted : readings.integer value = .ok byte) :
      StatesByte readings (some value) byte

/-- Why a field states no kind. -/
inductive RefusesKind (readings : FieldReadings) : Option Value → FieldReason → Prop where
  | missing : RefusesKind readings none .missing
  | empty {value : Value} (spells : value.Spells "") :
      RefusesKind readings (some value) .emptyText
  | noText {value : Value} {reason : FieldReason} (refused : readings.text value = .error reason) :
      RefusesKind readings (some value) reason

/-- Why a field states no position. -/
inductive RefusesByte (readings : FieldReadings) : Option Value → FieldReason → Prop where
  | noInteger {value : Value} {reason : FieldReason}
      (refused : readings.integer value = .error reason) :
      RefusesByte readings (some value) reason

/-! ## Descriptions -/

mutual

/-- The shape that a value describes. -/
inductive Describes (readings : FieldReadings) : Value → Shape → Prop where
  | node {entries : List (Value × Value)} {kind : String} {startByte endByte : Int}
      {children : List Shape}
      (kind_stated : StatesKind (Mapping.lookup (.text "kind") entries) kind)
      (start_stated : StatesByte readings (Mapping.lookup (.text "start_byte") entries) startByte)
      (end_stated : StatesByte readings (Mapping.lookup (.text "end_byte") entries) endByte)
      (below : DescribesChildren readings (Mapping.lookup (.text "children") entries) children) :
      Describes readings (.mapping entries) (.node kind startByte endByte children)

/-- The shapes of the children that a field describes. -/
inductive DescribesChildren (readings : FieldReadings) : Option Value → List Shape → Prop where
  | absent : DescribesChildren readings none []
  | listed {value : Value} {items : List Value} {children : List Shape}
      (lists : value.Lists items) (each : List.Forall₂ (Describes readings) items children) :
      DescribesChildren readings (some value) children

end

mutual

/-- A field that fails in a description, with the way to it and a reason. -/
inductive Fails (readings : FieldReadings) : Value → FieldError → Prop where
  | notMapping {value : Value} (noMapping : ∀ entries, value ≠ .mapping entries) :
      Fails readings value ⟨[], .notMapping⟩
  | kind {entries : List (Value × Value)} {reason : FieldReason}
      (refused : RefusesKind readings (Mapping.lookup (.text "kind") entries) reason) :
      Fails readings (.mapping entries) ⟨[.key "kind"], reason⟩
  | startByte {entries : List (Value × Value)} {reason : FieldReason}
      (refused : RefusesByte readings (Mapping.lookup (.text "start_byte") entries) reason) :
      Fails readings (.mapping entries) ⟨[.key "start_byte"], reason⟩
  | endByte {entries : List (Value × Value)} {reason : FieldReason}
      (refused : RefusesByte readings (Mapping.lookup (.text "end_byte") entries) reason) :
      Fails readings (.mapping entries) ⟨[.key "end_byte"], reason⟩
  | children {entries : List (Value × Value)} {error : FieldError}
      (fails : ChildrenFail readings (Mapping.lookup (.text "children") entries) error) :
      Fails readings (.mapping entries) (error.under (.key "children"))

/-- What fails in a field for children. -/
inductive ChildrenFail (readings : FieldReadings) : Option Value → FieldError → Prop where
  | noList {value : Value} {reason : FieldReason} (refused : readings.items value = .error reason) :
      ChildrenFail readings (some value) ⟨[], reason⟩
  | child {value : Value} {items : List Value} {place : Nat} {item : Value} {error : FieldError}
      (lists : value.Lists items) (found : items[place]? = some item)
      (fails : Fails readings item error) :
      ChildrenFail readings (some value) (error.under (.place place))

end

/-! ## Items -/

section Items

variable {Item Part : Type} {states : Item → Part → Prop} {fails : Item → FieldError → Prop}

/-- What fails in items that are counted from a place on. -/
inductive ItemsFail (fails : Item → FieldError → Prop) (place : Nat) (items : List Item) :
    FieldError → Prop where
  | item {number : Nat} {item : Item} {error : FieldError} (found : items[number]? = some item)
      (inner : fails item error) :
      ItemsFail fails place items (error.under (.place (place + number : Nat)))

/-- What fails is in the first item or in the others. -/
theorem itemsFail_cons_iff {item : Item} {items : List Item} {place : Nat} {error : FieldError} :
    ItemsFail fails place (item :: items) error ↔
      FailsUnder (.place place) (fails item) error ∨ ItemsFail fails (place + 1) items error := by
  constructor
  · rintro (@⟨number, other, inner, found, inside⟩)
    cases number with
    | zero =>
      cases found
      exact .inl ⟨inner, inside, rfl⟩
    | succ number =>
      rw [← Nat.succ_add_eq_add_succ]
      exact .inr (.item found inside)
  · rintro (⟨inner, inside, rfl⟩ | @⟨number, other, inner, found, inside⟩)
    · exact @ItemsFail.item _ _ place _ 0 item inner rfl inside
    · rw [Nat.succ_add_eq_add_succ]
      exact @ItemsFail.item _ _ place _ (number + 1) other inner found inside

/-- The errors at a place stand before those behind it. -/
theorem join_of_errors {first : Except (List FieldError) Part}
    {rest : Except (List FieldError) (List Part)} {place : Nat}
    (refused : (reported first).map (FieldError.under (.place place)) ++ reported rest ≠ []) :
    join place first rest =
      .error ((reported first).map (FieldError.under (.place place)) ++ reported rest) := by
  cases first with
  | ok part =>
    cases rest with
    | ok parts => exact absurd rfl refused
    | error errors => rfl
  | error errors =>
    cases rest with
    | ok parts => exact congrArg Except.error (List.append_nil _).symm
    | error more => rfl

/-- **Items are judged rightly** if each of them is. -/
theorem judges_collect {items : List Item} {outcome : Item → Except (List FieldError) Part}
    (each : ∀ item ∈ items, Judges (states item) (fails item) (outcome item)) (place : Nat) :
    Judges (List.Forall₂ states items) (ItemsFail fails place items)
      (collect place (items.map outcome)) := by
  induction items generalizing place with
  | nil =>
    rw [List.map_nil, collect]
    refine ⟨?_, ?_, nofun⟩
    · intro parts
      rw [List.forall₂_nil_left_iff, Except.ok.injEq, eq_comm]
    · rintro _ - _ ⟨found, -⟩
      cases found
  | cons item items ih =>
    obtain ⟨first, others⟩ := List.forall_mem_cons.mp each
    have rest := ih others (place + 1)
    rw [List.map_cons, collect]
    refine .of_errors ?_ join_of_errors ?_ ?_ ?_
    · intro clean
      obtain ⟨early, late⟩ := List.append_eq_nil_iff.mp clean
      obtain ⟨part, read⟩ := first.reported_eq_nil_iff.mp (List.map_eq_nil_iff.mp early)
      obtain ⟨parts, more⟩ := rest.reported_eq_nil_iff.mp late
      refine ⟨part :: parts, ?_, .cons (first.eq_ok_iff.mp read) (rest.eq_ok_iff.mp more)⟩
      rw [read, more]
      rfl
    · rintro _ (_ | ⟨stated, more⟩)
      rw [first.eq_ok_iff.mpr stated, rest.eq_ok_iff.mpr more]
      rfl
    · intro error
      rw [List.mem_append, first.mem_map_under_iff, rest.mem_reported_iff, itemsFail_cons_iff]
    · refine List.pairwise_append.mpr
        ⟨sorted_map_under first.sorted_reported _, rest.sorted_reported, ?_⟩
      intro error member other otherMember
      obtain ⟨inner, -, rfl⟩ := first.mem_map_under_iff.mp member
      obtain ⟨found, inside⟩ := rest.mem_reported_iff.mp otherMember
      exact .rel (.place (by omega))

end Items

/-! ## Fields in order -/

theorem mem_fieldErrors_iff {Field : Type} {key : String} {outcome : Except FieldReason Field}
    {error : FieldError} :
    error ∈ fieldErrors key outcome ↔
      ∃ reason, outcome = .error reason ∧ error = ⟨[.key key], reason⟩ := by
  cases outcome <;> simp [fieldErrors]

theorem fieldErrors_eq_nil_iff {Field : Type} {key : String}
    {outcome : Except FieldReason Field} :
    fieldErrors key outcome = [] ↔ ∃ field, outcome = .ok field := by
  cases outcome <;> simp [fieldErrors]

/-- Errors in order, each of them in one of the given fields. -/
structure Ordered (keys : List String) (errors : List FieldError) : Prop where
  sorted : errors.Pairwise FieldError.Before
  headed : ∀ error ∈ errors, ∃ name ∈ keys, ∃ rest, error.location = .key name :: rest

/-- The errors of later fields come later. -/
theorem Ordered.append {keys more : List String} {errors others : List FieldError}
    (first : Ordered keys errors) (second : Ordered more others)
    (apart : ∀ name ∈ keys, ∀ later ∈ more, fieldOrder.idxOf name < fieldOrder.idxOf later) :
    Ordered (keys ++ more) (errors ++ others) := by
  constructor
  · refine List.pairwise_append.mpr ⟨first.sorted, second.sorted, ?_⟩
    intro error member other otherMember
    obtain ⟨name, listed, rest, here⟩ := first.headed error member
    obtain ⟨later, laterListed, more, there⟩ := second.headed other otherMember
    rw [FieldError.Before, here, there]
    exact .rel (.key (apart name listed later laterListed))
  · intro error member
    rcases List.mem_append.mp member with early | late
    · obtain ⟨name, listed, here⟩ := first.headed error early
      exact ⟨name, List.mem_append_left _ listed, here⟩
    · obtain ⟨name, listed, here⟩ := second.headed error late
      exact ⟨name, List.mem_append_right _ listed, here⟩

theorem ordered_fieldErrors {Field : Type} (key : String) (outcome : Except FieldReason Field) :
    Ordered [key] (fieldErrors key outcome) := by
  constructor
  · cases outcome with
    | ok => exact .nil
    | error => exact List.pairwise_singleton _ _
  · intro error member
    obtain ⟨reason, -, rfl⟩ := mem_fieldErrors_iff.mp member
    exact ⟨key, List.mem_singleton_self key, [], rfl⟩

section Fields

variable {kind : Except FieldReason String} {startByte endByte : Except FieldReason Int}
  {children : Except (List FieldError) (List Shape)}

/-- The errors of the fields of a node, in their order. -/
def errorsOf (kind : Except FieldReason String) (startByte endByte : Except FieldReason Int)
    (children : Except (List FieldError) (List Shape)) : List FieldError :=
  fieldErrors "kind" kind ++ fieldErrors "start_byte" startByte ++
    fieldErrors "end_byte" endByte ++ reported children

theorem ofFields_of_errors (refused : errorsOf kind startByte endByte children ≠ []) :
    ofFields kind startByte endByte children =
      .error (errorsOf kind startByte endByte children) := by
  unfold ofFields
  split
  · exact absurd rfl refused
  · rfl

theorem ordered_errorsOf (below : Ordered ["children"] (reported children)) :
    Ordered ["kind", "start_byte", "end_byte", "children"]
      (errorsOf kind startByte endByte children) :=
  (((ordered_fieldErrors "kind" _).append (ordered_fieldErrors "start_byte" _)
    (by decide)).append (ordered_fieldErrors "end_byte" _) (by decide)).append below (by decide)

end Fields

/-! ## Reading a description -/

section Laws

variable {validator : ShapeValidator} {entries : List (Value × Value)}

theorem byte_eq_ok_iff {key : String} {byte : Int} :
    validator.byte key entries = .ok byte ↔
      StatesByte validator.toFieldReadings (Mapping.lookup (.text key) entries) byte := by
  rw [FieldReadings.byte]
  cases Mapping.lookup (.text key) entries with
  | none =>
    constructor
    · rintro ⟨⟩
      exact .absent
    · rintro ⟨⟩
      rfl
  | some value =>
    constructor
    · exact .accepted
    · rintro (_ | accepted)
      exact accepted

theorem byte_eq_error_iff {key : String} {reason : FieldReason} :
    validator.byte key entries = .error reason ↔
      RefusesByte validator.toFieldReadings (Mapping.lookup (.text key) entries) reason := by
  rw [FieldReadings.byte]
  cases Mapping.lookup (.text key) entries with
  | none => exact iff_of_false nofun nofun
  | some value =>
    constructor
    · exact .noInteger
    · rintro ⟨refused⟩
      exact refused

variable (laws : validator.Laws)
include laws

theorem kind_eq_ok_iff {kind : String} :
    validator.kind entries = .ok kind ↔
      StatesKind (Mapping.lookup (.text "kind") entries) kind := by
  rw [FieldReadings.kind]
  cases Mapping.lookup (.text "kind") entries with
  | none => exact iff_of_false nofun nofun
  | some value =>
    constructor
    · intro read
      obtain ⟨text, spelled, kept⟩ := bind_eq_ok_iff.mp read
      split at kept
      · cases kept
      · next inhabited =>
        cases kept
        exact .spelled (laws.text_eq_ok_iff.mp spelled) inhabited
    · rintro ⟨spells, inhabited⟩
      refine bind_eq_ok_iff.mpr ⟨_, laws.text_eq_ok_iff.mpr spells, ?_⟩
      rw [if_neg inhabited]
      rfl

theorem kind_eq_error_iff {reason : FieldReason} :
    validator.kind entries = .error reason ↔
      RefusesKind validator.toFieldReadings (Mapping.lookup (.text "kind") entries) reason := by
  rw [FieldReadings.kind]
  cases Mapping.lookup (.text "kind") entries with
  | none =>
    constructor
    · rintro ⟨⟩
      exact .missing
    · rintro ⟨⟩
      rfl
  | some value =>
    constructor
    · intro read
      rcases bind_eq_error_iff.mp read with refused | ⟨text, spelled, refused⟩
      · exact .noText refused
      · split at refused
        · next empty =>
          cases refused
          cases empty
          exact .empty (laws.text_eq_ok_iff.mp spelled)
        · cases refused
    · rintro (_ | spells | refused)
      · exact bind_eq_error_iff.mpr (.inr ⟨"", laws.text_eq_ok_iff.mpr spells, rfl⟩)
      · exact bind_eq_error_iff.mpr (.inl refused)

/-- The field for children is judged rightly if the items of its list are. -/
theorem judges_children
    (each : ∀ {value items}, Mapping.lookup (.text "children") entries = some value →
      value.Lists items → ∀ item ∈ items,
        Judges (Describes validator.toFieldReadings item) (Fails validator.toFieldReadings item)
          (validator.validate item)) :
    Judges
      (DescribesChildren validator.toFieldReadings (Mapping.lookup (.text "children") entries))
      (FailsUnder (.key "children")
        (ChildrenFail validator.toFieldReadings (Mapping.lookup (.text "children") entries)))
      (validator.children entries) := by
  rw [ShapeValidator.children]
  cases found : Mapping.lookup (.text "children") entries with
  | none =>
    refine ⟨⟨?_, ?_⟩, ?_, nofun⟩
    · rintro ⟨⟩
      exact .absent
    · rintro ⟨⟩
      rfl
    · rintro _ - _ ⟨_, ⟨⟩, -⟩
  | some value =>
    rw [Option.map_some]
    cases read : validator.items value with
    | error reason =>
      have noList {items : List Value} : ¬value.Lists items := by
        intro lists
        rw [laws.items_eq_ok_iff.mpr lists] at read
        cases read
      refine .of_only ?_ fun error => ⟨?_, ?_⟩
      · rintro _ (_ | ⟨lists, _⟩)
        exact noList lists
      · rintro ⟨inner, fails, rfl⟩
        cases fails with
        | noList refused =>
          cases read.symm.trans refused
          rfl
        | child lists => exact absurd lists noList
      · rintro rfl
        exact ⟨⟨[], reason⟩, .noList read, rfl⟩
    | ok items =>
      have lists := laws.items_eq_ok_iff.mp read
      have only {others : List Value} (also : value.Lists others) : others = items :=
        Except.ok.inj ((laws.items_eq_ok_iff.mpr also).symm.trans read)
      have inField := (judges_collect (each found lists) 0).under (.key "children")
      refine inField.congr (fun shapes => ⟨.listed lists, ?_⟩) fun error => ?_
      · rintro (_ | ⟨also, described⟩)
        rwa [only also] at described
      · refine exists_congr fun inner => and_congr_left fun _ => ⟨?_, ?_⟩
        · rintro ⟨found, fails⟩
          rw [Nat.zero_add]
          exact .child lists found fails
        · rintro (refused | @⟨_, _, place, _, error, also, found, fails⟩)
          · cases read.symm.trans refused
          · rw [only also] at found
            have here : ItemsFail (Fails validator.toFieldReadings) 0 items
                (error.under (.place (0 + place : Nat))) := .item found fails
            rwa [Nat.zero_add] at here

/-- **A node is judged rightly** if its children are. -/
theorem judges_mapping
    (below : Judges
      (DescribesChildren validator.toFieldReadings (Mapping.lookup (.text "children") entries))
      (FailsUnder (.key "children")
        (ChildrenFail validator.toFieldReadings (Mapping.lookup (.text "children") entries)))
      (validator.children entries)) :
    Judges (Describes validator.toFieldReadings (.mapping entries))
      (Fails validator.toFieldReadings (.mapping entries))
      (validator.validate (.mapping entries)) := by
  rw [laws.validate_mapping]
  refine .of_errors ?_ ofFields_of_errors ?_ ?_ ?_
  · intro clean
    simp only [errorsOf, List.append_eq_nil_iff, fieldErrors_eq_nil_iff,
      below.reported_eq_nil_iff] at clean
    obtain ⟨⟨⟨⟨kind, kindRead⟩, startByte, startRead⟩, endByte, endRead⟩, children, childrenRead⟩ :=
      clean
    rw [kindRead, startRead, endRead, childrenRead]
    exact ⟨_, rfl, .node ((kind_eq_ok_iff laws).mp kindRead) (byte_eq_ok_iff.mp startRead)
      (byte_eq_ok_iff.mp endRead) (below.eq_ok_iff.mp childrenRead)⟩
  · rintro _ ⟨kindStated, startStated, endStated, described⟩
    rw [(kind_eq_ok_iff laws).mpr kindStated, byte_eq_ok_iff.mpr startStated,
      byte_eq_ok_iff.mpr endStated, below.eq_ok_iff.mpr described]
    rfl
  · intro error
    simp only [errorsOf, List.mem_append, mem_fieldErrors_iff, kind_eq_error_iff laws,
      byte_eq_error_iff, below.mem_reported_iff]
    constructor
    · rintro (((⟨reason, refused, rfl⟩ | ⟨reason, refused, rfl⟩) | ⟨reason, refused, rfl⟩) |
        ⟨inner, fails, rfl⟩)
      · exact .kind refused
      · exact .startByte refused
      · exact .endByte refused
      · exact .children fails
    · intro fails
      cases fails with
      | notMapping noMapping => exact absurd rfl (noMapping entries)
      | kind refused => exact .inl (.inl (.inl ⟨_, refused, rfl⟩))
      | startByte refused => exact .inl (.inl (.inr ⟨_, refused, rfl⟩))
      | endByte refused => exact .inl (.inr ⟨_, refused, rfl⟩)
      | children fails => exact .inr ⟨_, fails, rfl⟩
  · refine (ordered_errorsOf ⟨below.sorted_reported, fun error member => ?_⟩).sorted
    obtain ⟨inner, -, rfl⟩ := below.mem_reported_iff.mp member
    exact ⟨"children", List.mem_singleton_self _, inner.location, rfl⟩

theorem judges_of_noMapping {value : Value} (noMapping : ∀ entries, value ≠ .mapping entries) :
    Judges (Describes validator.toFieldReadings value) (Fails validator.toFieldReadings value)
      (validator.validate value) := by
  rw [laws.validate_noMapping noMapping]
  refine .of_only ?_ fun error => ⟨fun fails => ?_, ?_⟩
  · rintro _ ⟨⟩
    exact absurd rfl (noMapping _)
  · cases fails with
    | notMapping => rfl
    | _ => exact absurd rfl (noMapping _)
  · rintro rfl
    exact .notMapping noMapping

end Laws

/-! ## Parts are smaller -/

theorem sizeOf_lt_of_lookup {key value : Value} {entries : List (Value × Value)}
    (found : Mapping.lookup key entries = some value) :
    sizeOf value < sizeOf (Value.mapping entries) := by
  obtain ⟨entry, listed, rfl⟩ := Option.map_eq_some_iff.mp found
  have smaller := List.sizeOf_lt_of_mem (List.mem_of_find?_eq_some listed)
  obtain ⟨other, value⟩ := entry
  simp only [Prod.mk.sizeOf_spec] at smaller
  simp only [Value.mapping.sizeOf_spec]
  omega

theorem sizeOf_lt_of_lists {value item : Value} {items : List Value} (lists : value.Lists items)
    (member : item ∈ items) : sizeOf item < sizeOf value := by
  have smaller := List.sizeOf_lt_of_mem member
  cases lists with
  | list =>
    simp only [Value.list.sizeOf_spec]
    omega
  | tuple =>
    simp only [Value.tuple.sizeOf_spec]
    omega
  | set =>
    simp only [Value.set.sizeOf_spec]
    omega

/-- **A description is read as what it describes**, and a report has all that fails. -/
theorem judges_validate {validator : ShapeValidator} (laws : validator.Laws) (value : Value) :
    Judges (Describes validator.toFieldReadings value) (Fails validator.toFieldReadings value)
      (validator.validate value) := by
  by_cases isMapping : ∃ entries, value = .mapping entries
  · obtain ⟨entries, same⟩ := isMapping
    rw [same]
    refine judges_mapping laws (judges_children laws fun found lists item member => ?_)
    have smaller : sizeOf item < sizeOf value := by
      rw [same]
      exact Nat.lt_trans (sizeOf_lt_of_lists lists member) (sizeOf_lt_of_lookup found)
    exact judges_validate laws item
  · exact judges_of_noMapping laws (not_exists.mp isMapping)
termination_by sizeOf value
decreasing_by exact smaller

end Shape

/-! ## Building a tree -/

/-- **A tree is built from a description as described, or not at all**, by any validator that
keeps the laws.  If a value describes a shape, no node refuses, and a walk of the tree lists
the parts of the shape.  Otherwise nothing is built, and the error reports every failure. -/
theorem Forest.ofDescription_builds_or_reports {validator : ShapeValidator}
    (laws : validator.Laws) (description : Value) :
    (∀ shape, Shape.Describes validator.toFieldReadings description shape →
      ∃ made, ofDescription validator description = .ok made ∧ made.refused = none ∧
        List.Forall₂ (made.forest.Realizes made.label) shape.preorder
          (made.forest.view.walk made.label)) ∧
    ((∀ shape, ¬Shape.Describes validator.toFieldReadings description shape) →
      ∃ errors, ofDescription validator description = .error (.invalid errors) ∧
        Reports (Shape.Fails validator.toFieldReadings description) errors) := by
  have judges := Shape.judges_validate laws description
  constructor
  · intro shape describes
    refine ⟨empty.plant shape, ?_, (plant_plants empty shape).1, plant_realizes empty shape⟩
    rw [ofDescription, judges.eq_ok_iff.mpr describes]
  · intro undescribed
    cases read : validator.validate description with
    | ok shape => exact absurd (judges.eq_ok_iff.mp read) (undescribed shape)
    | error errors =>
      refine ⟨errors, ?_, judges.reports read⟩
      rw [ofDescription, read]

/-- A description that is built, and one of which three fields fail. -/
theorem Forest.ofDescription_of_nested :
    let below := Value.mapping [(.text "kind", .text "b"), (.text "end_byte", .text " 7 ")]
    let whole := Value.mapping [(.text "kind", .text "a"), (.text "start_byte", .truth true),
      (.text "children", .list [below])]
    let broken := Value.mapping [(.text "end_byte", .nothing),
      (.text "children", .list [.mapping [(.text "kind", .text "")]])]
    (∃ made, ofDescription .standard whole = .ok made ∧ made.refused = none ∧
      List.Forall₂ (made.forest.Realizes made.label)
        (Shape.preorder (.node "a" 1 0 [.node "b" 0 7 []])) (made.forest.view.walk made.label)) ∧
    ∃ errors, ofDescription .standard broken = .error (.invalid errors) ∧
      Reports (Shape.Fails ShapeValidator.standard.toFieldReadings broken) errors ∧
      errors = [⟨[.key "kind"], .missing⟩, ⟨[.key "end_byte"], .notNumber⟩,
        ⟨[.key "children", .place 0, .key "kind"], .emptyText⟩] := by
  intro below whole broken
  constructor
  · refine (ofDescription_builds_or_reports ShapeValidator.standard_laws whole).1 _ ?_
    refine .node (.spelled (.text "a") (by decide)) (.accepted rfl) .absent ?_
    refine .listed (.list _) (.cons ?_ .nil)
    exact .node (.spelled (.text "b") (by decide)) .absent (.accepted (by decide)) .absent
  · have undescribed (shape : Shape) :
        ¬Shape.Describes ShapeValidator.standard.toFieldReadings broken shape := by
      change ¬Shape.Describes _ (Value.mapping _) shape
      rintro ⟨kind, _⟩
      cases kind
    obtain ⟨errors, failed, reports⟩ :=
      (ofDescription_builds_or_reports ShapeValidator.standard_laws broken).2 undescribed
    refine ⟨errors, failed, reports, ?_⟩
    have computed : ofDescription .standard broken = .error (.invalid
        [⟨[.key "kind"], .missing⟩, ⟨[.key "end_byte"], .notNumber⟩,
          ⟨[.key "children", .place 0, .key "kind"], .emptyText⟩]) := by
      with_unfolding_all rfl
    rw [computed] at failed
    exact (TreeError.invalid.inj (Except.error.inj failed)).symm

/-- A kind that is no text and children that are no list, of which a tree is built all the
same. -/
theorem Forest.ofDescription_of_bytes :
    let entries : List (Value × Value) :=
      [(.text "kind", .bytes [120]), (.text "children", .tuple [])]
    (∀ kind, Mapping.lookup (.text "kind") entries ≠ some (.text kind)) ∧
      (∀ items, Mapping.lookup (.text "children") entries ≠ some (.list items)) ∧
      ∃ made, ofDescription .standard (.mapping entries) = .ok made ∧
        made.forest.kind made.label = "x" := by
  refine ⟨nofun, nofun, empty.plant (.node "x" 0 0 []), ?_, ?_⟩
  · with_unfolding_all rfl
  · with_unfolding_all rfl

end TreeStyle
