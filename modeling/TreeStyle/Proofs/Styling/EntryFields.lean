import TreeStyle.Proofs.Values.Steps
import TreeStyle.Theme.Entry

/-!
# What an entry of a base theme states

An entry is a mapping of fields, and a vacant one has no fields.  A field may be left out
or nothing; otherwise its value writes a text, which has to be a colour or a list of
attributes.  A list of names writes them with bars in between.

By any validator that keeps the laws, an entry is read as the style that its fields state
(`Theme.EntryStates`), and where it states none, each reason for it is reported
(`Theme.EntryFails`).  A text that was kept is never refused when it is read again.

Main statements: `Theme.ReadsTexts.read_states_iff`, `Theme.readEntry_eq_ok_iff` and
`Theme.report_of_readEntry_eq_error`.
-/

namespace TreeStyle

set_option autoImplicit false

/-- The text that a value has. -/
def Value.Writes (value : Value) (text : String) : Prop := value.text? = .ok text

/-- There is one reason why a value has no text. -/
theorem Value.text?_eq_error {value : Value} {reason : String}
    (unwritten : value.text? = .error reason) : reason = Decimal.unwritableMessage := by
  rw [text?] at unwritten
  split at unwritten
  · exact (Except.error.inj unwritten).symm
  · cases unwritten

theorem Value.list_or_single (value : Value) :
    (∃ items, value = .list items) ∨ ∀ items, value ≠ .list items := by
  cases value <;> simp

namespace Theme

/-! ## The texts of values -/

/-- The text under which a value lists attributes: the texts of its items with bars in
between, or its own text if it is no list. -/
inductive WritesAttributes : Value → String → Prop where
  | items {items : List Value} {texts : List String}
      (written : List.Forall₂ Value.Writes items texts) :
      WritesAttributes (.list items) ("|".intercalate texts)
  | single {value : Value} {text : String} (noList : ∀ items, value ≠ .list items)
      (written : value.Writes text) : WritesAttributes value text

theorem attributesText_of_noList {value : Value} (noList : ∀ items, value ≠ .list items) :
    attributesText value = value.text? := by
  cases value with
  | list items => exact absurd rfl (noList items)
  | _ => rfl

theorem attributesText_eq_ok_iff {value : Value} {text : String} :
    attributesText value = .ok text ↔ WritesAttributes value text := by
  rcases value.list_or_single with ⟨items, rfl⟩ | noList
  · rw [attributesText, map_eq_ok_iff]
    constructor
    · rintro ⟨texts, read, rfl⟩
      exact .items (mapM_eq_ok_iff.mp read)
    · rintro (written | ⟨noList, -⟩)
      · exact ⟨_, mapM_eq_ok_iff.mpr written, rfl⟩
      · exact absurd rfl (noList items)
  · rw [attributesText_of_noList noList]
    constructor
    · exact .single noList
    · rintro (_ | ⟨-, written⟩)
      · exact absurd rfl (noList _)
      · exact written

theorem attributesText_eq_error {value : Value} {reason : String}
    (unwritten : attributesText value = .error reason) : reason = Decimal.unwritableMessage := by
  rcases value.list_or_single with ⟨items, rfl⟩ | noList
  · rw [attributesText, map_eq_error_iff] at unwritten
    obtain ⟨item, -, failed⟩ := exists_of_mapM_eq_error unwritten
    exact Value.text?_eq_error failed
  · rw [attributesText_of_noList noList] at unwritten
    exact Value.text?_eq_error unwritten

/-! ## Fields -/

section Fields

variable {Field Reason : Type}

/-- What a field is: unspecified if it is left out or nothing, and otherwise what the text
of its value is read as. -/
inductive FieldStates (writes : Value → String → Prop) (parse : String → Except Reason Field) :
    Option Value → Option Field → Prop where
  | absent : FieldStates writes parse none none
  | nothing : FieldStates writes parse (some .nothing) none
  | read {value : Value} {text : String} {field : Field} (filled : value ≠ .nothing)
      (written : writes value text) (parsed : parse text = .ok field) :
      FieldStates writes parse (some value) (some field)

/-- Why a field fails: its value has no text, or a text that is refused. -/
inductive FieldFails (key : String) (writes : Value → String → Prop)
    (parse : String → Except Reason Field) (wording : Reason → String) :
    Option Value → FieldError → Prop where
  | unwritable {value : Value} (filled : value ≠ .nothing)
      (unwritten : ∀ text, ¬writes value text) : FieldFails key writes parse wording (some value)
        ⟨[.key key], .refused Decimal.unwritableMessage⟩
  | refused {value : Value} {text : String} {reason : Reason} (filled : value ≠ .nothing)
      (written : writes value text) (refused : parse text = .error reason) :
      FieldFails key writes parse wording (some value) ⟨[.key key], .refused (wording reason)⟩

/-- Texts of values and readings of texts, as the checks of fields use them, and what they
mean. -/
structure ReadsTexts (write : Value → Except String String) (read : String → Except String Field)
    (writes : Value → String → Prop) (parse : String → Except Reason Field)
    (wording : Reason → String) : Prop where
  read_eq : ∀ text, read text = (parse text).mapError wording
  write_eq_ok_iff : ∀ {value text}, write value = .ok text ↔ writes value text
  write_eq_error : ∀ {value reason}, write value = .error reason →
    reason = Decimal.unwritableMessage

/-- Colours are read from the texts of their values. -/
theorem readsTexts_color :
    ReadsTexts Value.text? parseColor Value.Writes Color.ofString ColorError.message :=
  ⟨fun _ => rfl, Iff.rfl, Value.text?_eq_error⟩

/-- Attributes are read from the texts that list them. -/
theorem readsTexts_attributes :
    ReadsTexts attributesText parseAttributes WritesAttributes AttributeSet.ofString
      AttributeError.message :=
  ⟨fun _ => rfl, attributesText_eq_ok_iff, attributesText_eq_error⟩

theorem keepText_of_filled {value : Value} (filled : value ≠ .nothing)
    (write : Value → Except String String) (read : String → Except String Field) :
    keepText write read value =
      write value >>= fun text => read text >>= fun _ => .ok (some text) := by
  cases value with
  | nothing => exact absurd rfl filled
  | _ => rfl

namespace ReadsTexts

variable {write : Value → Except String String} {read : String → Except String Field}
  {writes : Value → String → Prop} {parse : String → Except Reason Field}
  {wording : Reason → String} (reads : ReadsTexts write read writes parse wording)
include reads

theorem read_eq_ok_iff {text : String} {field : Field} :
    read text = .ok field ↔ parse text = .ok field := by
  rw [reads.read_eq, mapError_eq_ok_iff]

theorem read_eq_error_iff {text message : String} :
    read text = .error message ↔
      ∃ reason, parse text = .error reason ∧ wording reason = message := by
  rw [reads.read_eq, mapError_eq_error_iff]

/-- A text is kept exactly if it is read as a field. -/
theorem keepText_eq_ok_iff {value : Value} (filled : value ≠ .nothing) {kept : Option String} :
    keepText write read value = .ok kept ↔
      ∃ text field, writes value text ∧ parse text = .ok field ∧ kept = some text := by
  rw [keepText_of_filled filled]
  constructor
  · intro checked
    obtain ⟨text, written, later⟩ := bind_eq_ok_iff.mp checked
    obtain ⟨field, stated, made⟩ := bind_eq_ok_iff.mp later
    exact ⟨text, field, reads.write_eq_ok_iff.mp written, reads.read_eq_ok_iff.mp stated,
      (Except.ok.inj made).symm⟩
  · rintro ⟨text, field, written, parsed, rfl⟩
    exact bind_eq_ok_iff.mpr ⟨text, reads.write_eq_ok_iff.mpr written,
      bind_eq_ok_iff.mpr ⟨field, reads.read_eq_ok_iff.mpr parsed, rfl⟩⟩

/-- A value is refused because it has no text, or because of its text. -/
theorem keepText_eq_error_iff {value : Value} (filled : value ≠ .nothing) {message : String} :
    keepText write read value = .error message ↔
      (∀ text, ¬writes value text) ∧ message = Decimal.unwritableMessage ∨
        ∃ text reason, writes value text ∧ parse text = .error reason ∧
          message = wording reason := by
  rw [keepText_of_filled filled, bind_eq_error_iff]
  refine or_congr ⟨fun failed => ⟨?_, reads.write_eq_error failed⟩, ?_⟩ ?_
  · intro text written
    rw [reads.write_eq_ok_iff.mpr written] at failed
    cases failed
  · rintro ⟨unwritten, rfl⟩
    cases written : write value with
    | ok text => exact absurd (reads.write_eq_ok_iff.mp written) (unwritten text)
    | error reason => rw [reads.write_eq_error written]
  · constructor
    · rintro ⟨text, written, refused⟩
      rcases bind_eq_error_iff.mp refused with failed | ⟨_, _, kept⟩
      · obtain ⟨reason, parsed, rfl⟩ := reads.read_eq_error_iff.mp failed
        exact ⟨text, reason, reads.write_eq_ok_iff.mp written, parsed, rfl⟩
      · cases kept
    · rintro ⟨text, reason, written, parsed, rfl⟩
      exact ⟨text, reads.write_eq_ok_iff.mpr written,
        bind_eq_error_iff.mpr (.inl (reads.read_eq_error_iff.mpr ⟨reason, parsed, rfl⟩))⟩

/-- **A text that is kept is read as what its field is.** -/
theorem read_states_iff {key : String} {fields : List (Value × Value)} {field : Option Field} :
    (∃ kept, TextField.read ⟨key, keepText write read⟩ fields = .ok kept ∧
      kept.mapM read = .ok field) ↔
      FieldStates writes parse (Mapping.lookup (.text key) fields) field := by
  unfold TextField.read
  cases Mapping.lookup (.text key) fields with
  | none =>
    constructor
    · rintro ⟨_, ⟨⟩, ⟨⟩⟩
      exact .absent
    · rintro ⟨⟩
      exact ⟨none, rfl, rfl⟩
  | some value =>
    by_cases empty : value = .nothing
    · subst empty
      constructor
      · rintro ⟨_, ⟨⟩, ⟨⟩⟩
        exact .nothing
      · rintro (_ | _ | ⟨filled, -, -⟩)
        · exact ⟨none, rfl, rfl⟩
        · exact absurd rfl filled
    · have again (text : String) (given : Field) (parsed : parse text = .ok given) :
          (some text).mapM read = .ok (some given) := by
        change some <$> read text = _
        rw [reads.read_eq_ok_iff.mpr parsed]
        rfl
      constructor
      · rintro ⟨kept, checked, stated⟩
        obtain ⟨text, given, written, parsed, rfl⟩ := (reads.keepText_eq_ok_iff empty).mp checked
        rw [again text given parsed] at stated
        cases stated
        exact .read empty written parsed
      · rintro (_ | _ | ⟨-, written, parsed⟩)
        · exact absurd rfl empty
        · exact ⟨_, (reads.keepText_eq_ok_iff empty).mpr ⟨_, _, written, parsed, rfl⟩,
            again _ _ parsed⟩

/-- Where no error is reported of a field, the field is something. -/
theorem exists_states_of_error?_eq_none {key : String} {fields : List (Value × Value)}
    (clean : TextField.error? ⟨key, keepText write read⟩ fields = none) :
    ∃ field, FieldStates writes parse (Mapping.lookup (.text key) fields) field := by
  unfold TextField.error? TextField.read at clean
  cases found : Mapping.lookup (.text key) fields with
  | none => exact ⟨none, .absent⟩
  | some value =>
    by_cases empty : value = .nothing
    · subst empty
      exact ⟨none, .nothing⟩
    · rw [found] at clean
      cases checked : keepText write read value with
      | error message => simp [checked] at clean
      | ok kept =>
        obtain ⟨text, field, written, parsed, rfl⟩ := (reads.keepText_eq_ok_iff empty).mp checked
        exact ⟨some field, .read empty written parsed⟩

/-- **A field fails for the reason that it has.** -/
theorem error?_eq_some_iff {key : String} {fields : List (Value × Value)} {error : FieldError} :
    TextField.error? ⟨key, keepText write read⟩ fields = some error ↔
      FieldFails key writes parse wording (Mapping.lookup (.text key) fields) error := by
  unfold TextField.error? TextField.read
  cases Mapping.lookup (.text key) fields with
  | none =>
    refine iff_of_false nofun ?_
    rintro ⟨⟩
  | some value =>
    by_cases empty : value = .nothing
    · subst empty
      refine iff_of_false nofun ?_
      rintro (⟨filled, -⟩ | ⟨filled, -, -⟩) <;> exact absurd rfl filled
    · dsimp only
      constructor
      · intro failed
        split at failed
        · cases failed
        · next message checked =>
          cases failed
          rcases (reads.keepText_eq_error_iff empty).mp checked with
            ⟨unwritten, rfl⟩ | ⟨text, reason, written, refused, rfl⟩
          · exact .unwritable empty unwritten
          · exact .refused empty written refused
      · rintro (⟨-, unwritten⟩ | ⟨-, written, refused⟩)
        · rw [(reads.keepText_eq_error_iff empty).mpr (.inl ⟨unwritten, rfl⟩)]
        · rw [(reads.keepText_eq_error_iff empty).mpr (.inr ⟨_, _, written, refused, rfl⟩)]

end ReadsTexts

end Fields

/-! ## Entries -/

/-- A style that fields state: their keys are the names of properties, and each property
is what its field is. -/
structure FieldsState (fields : List (Value × Value)) (style : PartialStyle) : Prop where
  known : ∀ field ∈ fields, ∃ property : Property, field.1 = .text property.name
  fg : FieldStates Value.Writes Color.ofString (Mapping.lookup (.text "fg") fields) style.fg
  bg : FieldStates Value.Writes Color.ofString (Mapping.lookup (.text "bg") fields) style.bg
  attrs : FieldStates WritesAttributes AttributeSet.ofString
    (Mapping.lookup (.text "attr") fields) style.attrs

/-- A reason why fields state no style.  Keys that are no text are located as `segmentOf`
says. -/
inductive FieldsFail (segmentOf : Value → Segment) (fields : List (Value × Value)) :
    FieldError → Prop where
  | fg {error : FieldError} (fails : FieldFails "fg" Value.Writes Color.ofString
      ColorError.message (Mapping.lookup (.text "fg") fields) error) :
      FieldsFail segmentOf fields error
  | bg {error : FieldError} (fails : FieldFails "bg" Value.Writes Color.ofString
      ColorError.message (Mapping.lookup (.text "bg") fields) error) :
      FieldsFail segmentOf fields error
  | attr {error : FieldError} (fails : FieldFails "attr" WritesAttributes AttributeSet.ofString
      AttributeError.message (Mapping.lookup (.text "attr") fields) error) :
      FieldsFail segmentOf fields error
  | unknownKey {name : String} {value : Value} (member : (.text name, value) ∈ fields)
      (unknown : ∀ property : Property, property.name ≠ name) :
      FieldsFail segmentOf fields ⟨[.key name], .unknownKey⟩
  | keyNotText {key value : Value} (member : (key, value) ∈ fields)
      (noText : ∀ name, key ≠ .text name) :
      FieldsFail segmentOf fields ⟨[segmentOf key], .keyNotText⟩

/-- The fields of an entry: those of a mapping, and none if the entry is vacant. -/
inductive HasFields : Value → List (Value × Value) → Prop where
  | vacant {entry : Value} (vacant : entry.isVacant = true) : HasFields entry []
  | mapping (fields : List (Value × Value)) : HasFields (.mapping fields) fields

/-- A style that an entry states by its fields. -/
def EntryStates (entry : Value) (style : PartialStyle) : Prop :=
  ∃ fields, HasFields entry fields ∧ FieldsState fields style

/-- A reason why an entry states no style: it has no fields, or they fail. -/
inductive EntryFails (segmentOf : Value → Segment) (entry : Value) : FieldError → Prop where
  | notMapping (fieldless : ∀ fields, ¬HasFields entry fields) :
      EntryFails segmentOf entry ⟨[], .notMapping⟩
  | fields {fields : List (Value × Value)} {error : FieldError} (content : HasFields entry fields)
      (fails : FieldsFail segmentOf fields error) : EntryFails segmentOf entry error

/-- An entry that has fields is read as a mapping of them. -/
theorem HasFields.content_eq {entry : Value} {fields : List (Value × Value)}
    (content : HasFields entry fields) :
    (if entry.isVacant then .mapping [] else entry) = .mapping fields := by
  cases content with
  | vacant vacant => rw [if_pos vacant]
  | mapping =>
    split
    · next vacant =>
      rw [Value.isVacant, List.isEmpty_iff] at vacant
      rw [vacant]
    · rfl

theorem HasFields.unique {entry : Value} {fields others : List (Value × Value)}
    (content : HasFields entry fields) (other : HasFields entry others) : fields = others :=
  Value.mapping.inj (content.content_eq.symm.trans other.content_eq)

theorem forall_entryFields_iff {holds : TextField → Prop} :
    (∀ field ∈ entryFields, holds field) ↔
      holds (colorField "fg") ∧ holds (colorField "bg") ∧ holds attributesField := by
  simp [entryFields]

/-- An entry without fields is handed on as it is. -/
theorem content_eq_of_fieldless {entry : Value} (fieldless : ∀ fields, ¬HasFields entry fields) :
    (if entry.isVacant then .mapping [] else entry) = entry ∧
      ∀ fields, entry ≠ .mapping fields :=
  ⟨if_neg fun vacant => fieldless [] (.vacant vacant),
    fun fields same => fieldless fields (same ▸ .mapping fields)⟩

section Keys

variable {segmentOf : Value → Segment} {key : Value}

theorem mem_names_iff {name : String} :
    name ∈ entryFields.map TextField.name ↔ ∃ property : Property, name = property.name := by
  have names : entryFields.map TextField.name = ["fg", "bg", "attr"] := rfl
  simp only [names, List.mem_cons, List.not_mem_nil, or_false]
  constructor
  · rintro (rfl | rfl | rfl)
    exacts [⟨.fg, rfl⟩, ⟨.bg, rfl⟩, ⟨.attr, rfl⟩]
  · rintro ⟨property, rfl⟩
    cases property <;> decide

/-- The keys of fields are the names of properties, and no others. -/
theorem keyError?_eq_none_iff :
    TextField.keyError? segmentOf entryFields key = none ↔
      ∃ property : Property, key = .text property.name := by
  cases key with
  | text name => simp only [TextField.keyError?, mem_names_iff, ite_eq_left_iff, reduceCtorEq,
      imp_false, not_not, Value.text.injEq]
  | _ => simp [TextField.keyError?]

theorem keyError?_eq_some_iff {error : FieldError} :
    TextField.keyError? segmentOf entryFields key = some error ↔
      (∃ name, key = .text name ∧ (∀ property : Property, property.name ≠ name) ∧
        error = ⟨[.key name], .unknownKey⟩) ∨
      (∀ name, key ≠ .text name) ∧ error = ⟨[segmentOf key], .keyNotText⟩ := by
  cases key with
  | text name =>
    simp only [TextField.keyError?, Value.text.injEq, exists_eq_left', ne_eq, forall_eq',
      false_and, or_false]
    split
    · next known =>
      obtain ⟨property, named⟩ := mem_names_iff.mp known
      exact iff_of_false nofun fun unknown => unknown.1 property named.symm
    · next unknown =>
      rw [Option.some.injEq, eq_comm, iff_and_self]
      exact fun _ property named => unknown (mem_names_iff.mpr ⟨property, named.symm⟩)
  | _ => simp [TextField.keyError?, eq_comm]

end Keys

section Fields

variable {segmentOf : Value → Segment} {fields : List (Value × Value)}

/-- **The errors of the fields of an entry are their failures.** -/
theorem mem_errorsOf_iff {error : FieldError} :
    error ∈ TextField.errorsOf segmentOf entryFields fields ↔
      FieldsFail segmentOf fields error := by
  simp only [TextField.errorsOf, List.mem_append, List.mem_filterMap, entryFields, colorField,
    attributesField, List.exists_mem_cons_iff, List.not_mem_nil, false_and, exists_false, or_false,
    readsTexts_color.error?_eq_some_iff, readsTexts_attributes.error?_eq_some_iff]
  constructor
  · rintro ((fg | bg | attr) | ⟨⟨key, value⟩, member, failed⟩)
    · exact .fg fg
    · exact .bg bg
    · exact .attr attr
    · rcases keyError?_eq_some_iff.mp failed with ⟨name, named, unknown, rfl⟩ | ⟨noText, rfl⟩
      · cases named
        exact .unknownKey member unknown
      · exact .keyNotText member noText
  · intro fails
    cases fails with
    | fg fails => exact .inl (.inl fails)
    | bg fails => exact .inl (.inr (.inl fails))
    | attr fails => exact .inl (.inr (.inr fails))
    | unknownKey member unknown =>
      exact .inr ⟨_, member, keyError?_eq_some_iff.mpr (.inl ⟨_, rfl, unknown, rfl⟩)⟩
    | keyNotText member noText =>
      exact .inr ⟨_, member, keyError?_eq_some_iff.mpr (.inr ⟨noText, rfl⟩)⟩

/-- Where nothing is to be reported, the fields are clean and so are the keys. -/
theorem errorsOf_eq_nil_iff :
    TextField.errorsOf segmentOf entryFields fields = [] ↔
      (∀ field ∈ entryFields, field.error? fields = none) ∧
        ∀ field ∈ fields, ∃ property : Property, field.1 = .text property.name := by
  simp only [TextField.errorsOf, List.append_eq_nil_iff, List.filterMap_eq_nil_iff,
    keyError?_eq_none_iff]

/-- Fields that state a style do not fail. -/
theorem FieldsState.errorsOf_eq_nil {style : PartialStyle} (states : FieldsState fields style) :
    TextField.errorsOf segmentOf entryFields fields = [] := by
  refine errorsOf_eq_nil_iff.mpr ⟨?_, states.known⟩
  obtain ⟨_, fg, -⟩ := readsTexts_color.read_states_iff.mpr states.fg
  obtain ⟨_, bg, -⟩ := readsTexts_color.read_states_iff.mpr states.bg
  obtain ⟨_, attr, -⟩ := readsTexts_attributes.read_states_iff.mpr states.attrs
  exact forall_entryFields_iff.mpr
    ⟨TextField.error?_of_ok fg, TextField.error?_of_ok bg, TextField.error?_of_ok attr⟩

section Texts

/-- A text that is kept states what its field does. -/
theorem fieldStates_iff_of_kept {Field Reason : Type} {key : String} {text : Option String}
    {write : Value → Except String String} {read : String → Except String Field}
    {writes : Value → String → Prop} {parse : String → Except Reason Field}
    {wording : Reason → String} (reads : ReadsTexts write read writes parse wording)
    (kept : TextField.read ⟨key, keepText write read⟩ fields = .ok text) {field : Option Field} :
    text.mapM read = .ok field ↔
      FieldStates writes parse (Mapping.lookup (.text key) fields) field := by
  rw [← reads.read_states_iff, kept]
  simp

variable {texts : String → Option String}

theorem styleOfTexts_eq_ok_iff {style : PartialStyle} :
    styleOfTexts texts = .ok style ↔
      (texts "fg").mapM parseColor = .ok style.fg ∧ (texts "bg").mapM parseColor = .ok style.bg ∧
        (texts "attr").mapM parseAttributes = .ok style.attrs := by
  rw [styleOfTexts, bind_eq_ok_iff]
  constructor
  · rintro ⟨fg, fgRead, later⟩
    obtain ⟨bg, bgRead, later⟩ := bind_eq_ok_iff.mp later
    obtain ⟨attrs, attrsRead, made⟩ := bind_eq_ok_iff.mp later
    cases made
    exact ⟨fgRead, bgRead, attrsRead⟩
  · rintro ⟨fgRead, bgRead, attrsRead⟩
    exact ⟨_, fgRead, bind_eq_ok_iff.mpr ⟨_, bgRead, bind_eq_ok_iff.mpr ⟨_, attrsRead, rfl⟩⟩⟩

variable (kept : ∀ field ∈ entryFields, field.read fields = .ok (texts field.name))
include kept

/-- The texts that are kept state what the fields do. -/
theorem styleOfTexts_eq_ok_iff_of_kept {style : PartialStyle} :
    styleOfTexts texts = .ok style ↔
      FieldStates Value.Writes Color.ofString (Mapping.lookup (.text "fg") fields) style.fg ∧
      FieldStates Value.Writes Color.ofString (Mapping.lookup (.text "bg") fields) style.bg ∧
      FieldStates WritesAttributes AttributeSet.ofString (Mapping.lookup (.text "attr") fields)
        style.attrs := by
  obtain ⟨fg, bg, attr⟩ := forall_entryFields_iff.mp kept
  rw [styleOfTexts_eq_ok_iff]
  exact and_congr (fieldStates_iff_of_kept readsTexts_color fg)
    (and_congr (fieldStates_iff_of_kept readsTexts_color bg)
      (fieldStates_iff_of_kept readsTexts_attributes attr))

/-- **Texts that were kept are read**, when they are read again. -/
theorem exists_styleOfTexts_of_kept : ∃ style, styleOfTexts texts = .ok style := by
  obtain ⟨fg, bg, attr⟩ := forall_entryFields_iff.mp kept
  obtain ⟨fg, fgStates⟩ :=
    readsTexts_color.exists_states_of_error?_eq_none (TextField.error?_of_ok fg)
  obtain ⟨bg, bgStates⟩ :=
    readsTexts_color.exists_states_of_error?_eq_none (TextField.error?_of_ok bg)
  obtain ⟨attrs, attrsStates⟩ :=
    readsTexts_attributes.exists_states_of_error?_eq_none (TextField.error?_of_ok attr)
  exact ⟨⟨fg, bg, attrs⟩,
    (styleOfTexts_eq_ok_iff_of_kept kept).mpr ⟨fgStates, bgStates, attrsStates⟩⟩

end Texts

end Fields

/-! ## Reading an entry -/

section Reading

variable {validator : RecordValidator} (laws : validator.Laws)
include laws

/-- What a validator makes of the fields of an entry. -/
theorem HasFields.readEntry_eq {entry : Value} {fields : List (Value × Value)}
    (content : HasFields entry fields) (name : Value) :
    (∃ texts, (∀ field ∈ entryFields, field.read fields = .ok (texts field.name)) ∧
        TextField.errorsOf validator.segmentOf entryFields fields = [] ∧
        readEntry validator name entry = (styleOfTexts texts).mapError .refusedText) ∨
      TextField.errorsOf validator.segmentOf entryFields fields ≠ [] ∧
        readEntry validator name entry =
          .error (.invalidEntry name
            (TextField.errorsOf validator.segmentOf entryFields fields)) := by
  have distinct : (entryFields.map TextField.name).Nodup := by decide
  rw [readEntry, content.content_eq]
  by_cases clean : TextField.errorsOf validator.segmentOf entryFields fields = []
  · obtain ⟨texts, validated, kept⟩ := laws.accepts distinct clean
    refine .inl ⟨texts, kept, clean, ?_⟩
    rw [validated]
    rfl
  · refine .inr ⟨clean, ?_⟩
    rw [laws.reports distinct clean]
    rfl

theorem readEntry_of_fieldless {entry : Value} (fieldless : ∀ fields, ¬HasFields entry fields)
    (name : Value) :
    readEntry validator name entry = .error (.invalidEntry name [⟨[], .notMapping⟩]) := by
  obtain ⟨whole, noMapping⟩ := content_eq_of_fieldless fieldless
  rw [readEntry, whole, laws.refuses noMapping]
  rfl

/-- **An entry is read as the style that it states.** -/
theorem readEntry_eq_ok_iff {name entry : Value} {style : PartialStyle} :
    readEntry validator name entry = .ok style ↔ EntryStates entry style := by
  constructor
  · intro made
    by_cases hasFields : ∃ fields, HasFields entry fields
    · obtain ⟨fields, content⟩ := hasFields
      rcases content.readEntry_eq laws name with ⟨texts, kept, clean, read⟩ | ⟨-, failed⟩
      · rw [read, mapError_eq_ok_iff] at made
        obtain ⟨fg, bg, attrs⟩ := (styleOfTexts_eq_ok_iff_of_kept kept).mp made
        exact ⟨fields, content, (errorsOf_eq_nil_iff.mp clean).2, fg, bg, attrs⟩
      · rw [failed] at made
        cases made
    · rw [readEntry_of_fieldless laws (not_exists.mp hasFields)] at made
      cases made
  · rintro ⟨fields, content, states⟩
    rcases content.readEntry_eq laws name with ⟨texts, kept, -, read⟩ | ⟨failing, -⟩
    · rw [read, mapError_eq_ok_iff, styleOfTexts_eq_ok_iff_of_kept kept]
      exact ⟨states.fg, states.bg, states.attrs⟩
    · exact absurd states.errorsOf_eq_nil failing

/-- **All the reasons are given** why an entry states no style; a text that was kept is not
among them. -/
theorem report_of_readEntry_eq_error {name entry : Value} {error : ThemeError}
    (refused : readEntry validator name entry = .error error) :
    ∃ errors, error = .invalidEntry name errors ∧ errors ≠ [] ∧
      ∀ error, error ∈ errors ↔ EntryFails validator.segmentOf entry error := by
  by_cases hasFields : ∃ fields, HasFields entry fields
  · obtain ⟨fields, content⟩ := hasFields
    rcases content.readEntry_eq laws name with ⟨texts, kept, -, read⟩ | ⟨failing, failed⟩
    · obtain ⟨style, stated⟩ := exists_styleOfTexts_of_kept kept
      rw [read, stated] at refused
      cases refused
    · rw [failed] at refused
      cases refused
      refine ⟨_, rfl, failing, fun error => mem_errorsOf_iff.trans ⟨.fields content, ?_⟩⟩
      rintro (fieldless | ⟨here, fails⟩)
      · exact absurd content (fieldless fields)
      · exact content.unique here ▸ fails
  · have fieldless := not_exists.mp hasFields
    rw [readEntry_of_fieldless laws fieldless] at refused
    cases refused
    refine ⟨_, rfl, List.cons_ne_nil _ _, fun error => List.mem_singleton.trans ⟨?_, ?_⟩⟩
    · rintro rfl
      exact .notMapping fieldless
    · rintro (_ | ⟨content, -⟩)
      · rfl
      · exact absurd content (fieldless _)

end Reading

end Theme

end TreeStyle
