import TreeStyle.Proofs.Grammar.FieldTexts
import TreeStyle.Proofs.Styling.Cascade
import TreeStyle.Proofs.Styling.EntryFields

/-!
# Entries and declarations

The fields of a style are given as texts in two places, in the declaration of a rule and
in an entry of a base theme.  An entry reads every field and reports all that fail, in a
fixed order of the fields, whereas a rule stops at the first one.  Apart from that they
mean the same: both state one style, or both fail, and the error of the rule is worded as
the first failure of the entry.  All that is asked of the validator of entries is that it
keeps the laws.

Main statement: `FieldTexts.entry_agrees_with_rule`.
-/

namespace TreeStyle

set_option autoImplicit false

/-! ## Values given as texts -/

theorem Theme.attributesText_text (text : String) : attributesText (.text text) = .ok text :=
  Value.text?_text text

theorem ParseError.message_of_invalidColor (error : ParseError) (reason : ColorError)
    (same : error.cause = .invalidColor reason) : error.message = reason.message := by
  rw [message, same]

theorem ParseError.message_of_invalidAttribute (error : ParseError) (reason : AttributeError)
    (same : error.cause = .invalidAttribute reason) : error.message = reason.message := by
  rw [message, same]

/-! ## Fields that are given -/

/-- The texts of the fields of a style; a field may be left out. -/
structure FieldTexts where
  fg : Option String := none
  bg : Option String := none
  attr : Option String := none

namespace FieldTexts

/-- The text of a field. -/
def get (texts : FieldTexts) : Property → Option String
  | .fg => texts.fg
  | .bg => texts.bg
  | .attr => texts.attr

/-- The fields that are given, in the order fg, bg, attr. -/
def fields (texts : FieldTexts) : List (Property × String) :=
  [Property.fg, .bg, .attr].filterMap fun property => (texts.get property).map (property, ·)

/-- The names of the fields with their texts. -/
def entries (texts : FieldTexts) : List (Value × Value) :=
  texts.fields.map fun field => (.text field.1.name, .text field.2)

theorem nodup_fields (texts : FieldTexts) : (texts.fields.map Prod.fst).Nodup := by
  obtain ⟨fg, bg, attr⟩ := texts
  cases fg <;> cases bg <;> cases attr <;> simp [fields, get]

/-- A field is found under its name. -/
theorem lookup_entries (texts : FieldTexts) (property : Property) :
    Mapping.lookup (.text property.name) texts.entries =
      (texts.get property).map Value.text := by
  obtain ⟨fg, bg, attr⟩ := texts
  cases fg <;> cases bg <;> cases attr <;> cases property <;> rfl

/-- An entry with fields has no other keys, so its errors are those of the fields. -/
theorem errorsOf_entries (texts : FieldTexts) (segmentOf : Value → Segment) :
    TextField.errorsOf segmentOf Theme.entryFields texts.entries =
      Theme.entryFields.filterMap (TextField.error? · texts.entries) := by
  have keys : texts.entries.filterMap
      (fun entry => TextField.keyError? segmentOf Theme.entryFields entry.1) = [] := by
    rw [List.filterMap_eq_nil_iff]
    intro entry member
    obtain ⟨⟨property, text⟩, _, rfl⟩ := List.mem_map.mp member
    exact Theme.keyError?_eq_none_iff.mpr ⟨property, rfl⟩
  rw [TextField.errorsOf, keys, List.append_nil]

/-! ## Reading an entry -/

/-- What the check of a field hands on of its text: nothing if there is none, the text if a
declaration would set a value by it, or a failure with the wording of the error of a
declaration. -/
inductive Reads {Field : Type} (property : Property) (setting : Field → Setting)
    (parse : String → Except String Field) :
    Option String → Except String (Option String) → Prop where
  | absent : Reads property setting parse none (.ok none)
  | stated {text : String} {field : Field} (parsed : parse text = .ok field)
      (read : property.read text = .ok (setting field)) :
      Reads property setting parse (some text) (.ok (some text))
  | refused {text : String} {cause : Cause} {reason : String}
      (read : property.read text = .error cause)
      (worded : ∀ error : ParseError, error.cause = cause → error.message = reason) :
      Reads property setting parse (some text) (.error reason)

/-- A check reads a field as a declaration does, if both read its text in one way and word
the reasons alike. -/
theorem reads_field {Field Reason : Type} (texts : FieldTexts) {property : Property}
    {setting : Field → Setting} {write : Value → Except String String}
    {parse : String → Except Reason Field} {cause : Reason → Cause} {wording : Reason → String}
    (written : ∀ text, write (.text text) = .ok text)
    (read : ∀ text, property.read text = ((parse text).mapError cause).map setting)
    (worded : ∀ (error : ParseError) (reason : Reason), error.cause = cause reason →
      error.message = wording reason) :
    Reads property setting (fun text => (parse text).mapError wording) (texts.get property)
      (TextField.read
        ⟨property.name, Theme.keepText write fun text => (parse text).mapError wording⟩
        texts.entries) := by
  rw [TextField.read, lookup_entries]
  cases texts.get property with
  | none => exact .absent
  | some text =>
    have stated := read text
    have filled : Value.text text ≠ .nothing := Value.noConfusion
    dsimp only [Option.map_some]
    rw [Theme.keepText_of_filled filled, written]
    change Reads property setting _ (some text)
      ((parse text).mapError wording >>= fun _ => .ok (some text))
    cases parsed : parse text with
    | ok field =>
      rw [parsed] at stated
      exact .stated (mapError_eq_ok_iff.mpr parsed) stated
    | error reason =>
      rw [parsed] at stated
      exact .refused stated fun error => worded error reason

/-- What the checks of an entry hand on of its fields. -/
theorem reads_entry (texts : FieldTexts) :
    Reads .fg Setting.fg Theme.parseColor texts.fg ((Theme.colorField "fg").read texts.entries) ∧
      Reads .bg Setting.bg Theme.parseColor texts.bg
        ((Theme.colorField "bg").read texts.entries) ∧
      Reads .attr Setting.attr Theme.parseAttributes texts.attr
        (Theme.attributesField.read texts.entries) :=
  ⟨texts.reads_field Value.text?_text (fun _ => rfl) ParseError.message_of_invalidColor,
    texts.reads_field Value.text?_text (fun _ => rfl) ParseError.message_of_invalidColor,
    texts.reads_field Theme.attributesText_text (fun _ => rfl)
      ParseError.message_of_invalidAttribute⟩

/-- The style with one more field, if a text for it is given. -/
def readGiven (style : PartialStyle) (property : Property) :
    Option String → Except Cause PartialStyle
  | none => .ok style
  | some text => (property.read text).map style.set

/-- Fields that are left out are passed over. -/
theorem readFields_filterMap (texts : FieldTexts) (style : PartialStyle)
    (properties : List Property) :
    style.readFields
        (properties.filterMap fun property => (texts.get property).map (property, ·)) =
      properties.foldlM (fun style property => readGiven style property (texts.get property))
        style := by
  induction properties generalizing style with
  | nil => rfl
  | cons property properties ih =>
    rw [List.filterMap_cons, List.foldlM_cons]
    cases texts.get property with
    | none => exact ih style
    | some text =>
      rw [readGiven]
      change PartialStyle.readFields style ((property, text) :: _) = _
      rw [PartialStyle.readFields]
      cases property.read text with
      | ok setting => exact ih (style.set setting)
      | error cause => rfl

/-- A text that is handed on states what is set, and one that is not is a cause and a
failure. -/
theorem Reads.readGiven_eq {Field : Type} {property : Property} {setting : Field → Setting}
    {parse : String → Except String Field} {text : Option String}
    {checked : Except String (Option String)} (reads : Reads property setting parse text checked)
    (style : PartialStyle) :
    (∃ field, checked = .ok text ∧ text.mapM parse = .ok field ∧
        readGiven style property text = .ok ((field.map setting).elim style style.set)) ∨
      ∃ cause reason, checked = .error reason ∧
        (∀ error : ParseError, error.cause = cause → error.message = reason) ∧
        readGiven style property text = .error cause := by
  cases reads with
  | absent => exact .inl ⟨none, rfl, rfl, rfl⟩
  | @stated text field parsed read =>
    refine .inl ⟨some field, rfl, ?_, ?_⟩
    · change some <$> parse text = _
      rw [parsed]
      rfl
    · rw [readGiven, read]
      rfl
  | refused read worded =>
    rw [readGiven, read]
    exact .inr ⟨_, _, rfl, worded, rfl⟩

/-- Whether an entry under a name and a declaration come to the same: one style, or a cause
and a report whose first failure has the wording for it. -/
inductive Agrees (name : Value) :
    Except Cause PartialStyle → Except ThemeError PartialStyle → Prop where
  | stated (style : PartialStyle) : Agrees name (.ok style) (.ok style)
  | refused {cause : Cause} {location : List Segment} {reason : String} {errors : List FieldError}
      (worded : ∀ error : ParseError, error.cause = cause → error.message = reason) :
      Agrees name (.error cause)
        (.error (.invalidEntry name (⟨location, .refused reason⟩ :: errors)))

section Laws

variable {validator : RecordValidator} (laws : validator.Laws) (texts : FieldTexts) (name : Value)
include laws

/-- A failure that heads the report on an entry is the cause why a declaration fails. -/
theorem agrees_of_first {cause : Cause} {reason : String} {location : List Segment}
    {errors : List FieldError}
    (first : Theme.entryFields.filterMap (TextField.error? · texts.entries) =
      ⟨location, .refused reason⟩ :: errors)
    (worded : ∀ error : ParseError, error.cause = cause → error.message = reason) :
    Agrees name (.error cause) (Theme.readEntry validator name (.mapping texts.entries)) := by
  rw [← texts.errorsOf_entries validator.segmentOf] at first
  rcases (Theme.HasFields.mapping texts.entries).readEntry_eq laws name with
    ⟨_, _, clean, _⟩ | ⟨_, failed⟩
  · rw [clean] at first
    cases first
  · rw [failed, first]
    exact .refused worded

/-- Texts that are all handed on are read to the style that they state. -/
theorem readEntry_of_kept (style : PartialStyle)
    (fg : (Theme.colorField "fg").read texts.entries = .ok texts.fg)
    (bg : (Theme.colorField "bg").read texts.entries = .ok texts.bg)
    (attr : Theme.attributesField.read texts.entries = .ok texts.attr)
    (fgParsed : texts.fg.mapM Theme.parseColor = .ok style.fg)
    (bgParsed : texts.bg.mapM Theme.parseColor = .ok style.bg)
    (attrParsed : texts.attr.mapM Theme.parseAttributes = .ok style.attrs) :
    Theme.readEntry validator name (.mapping texts.entries) = .ok style := by
  rcases (Theme.HasFields.mapping texts.entries).readEntry_eq laws name with
    ⟨kept, each, _, read⟩ | ⟨failing, _⟩
  · obtain ⟨fgKept, bgKept, attrKept⟩ := Theme.forall_entryFields_iff.mp each
    have fgSame : texts.fg = kept "fg" := Except.ok.inj (fg.symm.trans fgKept)
    have bgSame : texts.bg = kept "bg" := Except.ok.inj (bg.symm.trans bgKept)
    have attrSame : texts.attr = kept "attr" := Except.ok.inj (attr.symm.trans attrKept)
    rw [read, mapError_eq_ok_iff, Theme.styleOfTexts_eq_ok_iff, ← fgSame, ← bgSame, ← attrSame]
    exact ⟨fgParsed, bgParsed, attrParsed⟩
  · rw [texts.errorsOf_entries] at failing
    refine absurd (List.filterMap_eq_nil_iff.mpr (Theme.forall_entryFields_iff.mpr ?_)) failing
    exact ⟨TextField.error?_of_ok fg, TextField.error?_of_ok bg, TextField.error?_of_ok attr⟩

/-- **An entry states what its fields state.** -/
theorem agrees_readEntry :
    Agrees name (PartialStyle.readFields {} texts.fields)
      (Theme.readEntry validator name (.mapping texts.entries)) := by
  obtain ⟨fgReads, bgReads, attrReads⟩ := texts.reads_entry
  rw [fields, readFields_filterMap]
  simp only [List.foldlM_cons, List.foldlM_nil, get]
  have goOn (style : PartialStyle) (next : PartialStyle → Except Cause PartialStyle) :
      (Except.ok style >>= next) = next style := rfl
  have report : Theme.entryFields.filterMap (TextField.error? · texts.entries) =
      ((Theme.colorField "fg").error? texts.entries).toList ++
        (((Theme.colorField "bg").error? texts.entries).toList ++
          (Theme.attributesField.error? texts.entries).toList) := by
    simp only [Theme.entryFields, List.filterMap_cons, List.filterMap_nil]
    cases (Theme.colorField "fg").error? texts.entries <;>
      cases (Theme.colorField "bg").error? texts.entries <;>
        cases Theme.attributesField.error? texts.entries <;> rfl
  -- The first field that is refused ends the declaration and heads the report on the entry.
  rcases fgReads.readGiven_eq {} with
    ⟨fg, fgKept, fgParsed, read⟩ | ⟨cause, reason, failed, worded, refused⟩
  · rw [read, goOn]
    rw [TextField.error?_of_ok fgKept] at report
    rcases bgReads.readGiven_eq _ with
      ⟨bg, bgKept, bgParsed, read⟩ | ⟨cause, reason, failed, worded, refused⟩
    · rw [read, goOn]
      rw [TextField.error?_of_ok bgKept] at report
      rcases attrReads.readGiven_eq _ with
        ⟨attrs, attrKept, attrParsed, read⟩ | ⟨cause, reason, failed, worded, refused⟩
      · rw [read, texts.readEntry_of_kept laws name ⟨fg, bg, attrs⟩ fgKept bgKept attrKept
          fgParsed bgParsed attrParsed]
        cases fg <;> cases bg <;> cases attrs <;> exact .stated _
      · rw [TextField.error?_of_error failed] at report
        rw [refused]
        exact texts.agrees_of_first laws name report worded
    · rw [TextField.error?_of_error failed] at report
      rw [refused]
      exact texts.agrees_of_first laws name report worded
  · rw [TextField.error?_of_error failed] at report
    rw [refused]
    exact texts.agrees_of_first laws name report worded

end Laws

end FieldTexts

/-! ## Themes of one entry -/

/-- A theme of one entry gives the group the style that the entry states. -/
theorem Theme.ofMapping_entry (validator : RecordValidator) (group : Highlight) (entry : Value) :
    ofMapping validator [(.text group.name, entry)] =
      (readEntry validator (.text group.name) entry).map (insert {} group) := by
  have named : groupOf (.text group.name) = .ok group := by
    simp only [groupOf, Value.text?_text, Highlight.ofName?_name]
  simp only [ofMapping, List.foldlM_cons, List.foldlM_nil, readNamedEntry, named]
  cases readEntry validator (.text group.name) entry <;> rfl

/-! ## Stylesheets of one rule -/

/-- A rule for a kind styles the nodes of the kind, if its declaration states a style, and
no other nodes. -/
theorem resolve_forKind {Node : Type} (view : TreeView Node) (kind : String)
    (declaration : Declaration) (theme : Theme) (node : Node) :
    (resolve view (.forKind kind declaration) theme node).style =
      if view.kind node == kind then (declaration.style? theme).elim {} (Style.merge {})
      else {} := by
  let rule : Rule := ⟨[⟨kind, []⟩], declaration, List.cons_ne_nil _ _⟩
  have asked (memo : Memo) :
      ruleMatchesWith view 0 rule node memo = (view.kind node == kind, memo) := by
    change [((⟨kind, []⟩ : Chain), 0)].anyM
      (fun entry => matchesWith view ⟨0, entry.2⟩ entry.1 node) memo = _
    rw [anyM_cons_run]
    change (if view.kind node == kind then (true, memo) else (false, memo)) = _
    cases view.kind node == kind <;> rfl
  have found : matchingRules view (.forKind kind declaration) node =
      if view.kind node == kind then [(0, rule)] else [] := by
    change ([(rule, 0)].filterM (fun entry => ruleMatchesWith view entry.2 entry.1 node) {}).1.map
      (fun entry => (entry.2, entry.1)) = _
    rw [Memo.filterM_cons_run]
    simp only [asked]
    cases view.kind node == kind <;> rfl
  rw [resolve_style_eq_foldl, found]
  cases view.kind node == kind with
  | false => rfl
  | true =>
    simp only [if_true, List.filterMap_cons, List.filterMap_nil]
    cases declaration.style? theme <;> rfl

/-- **An entry of a base theme and a declaration mean the same**, by any validator of entries
that keeps the laws.  For fields that are given as texts, the theme of one entry is made
exactly if the rule is read.  Then the entry is the style that the rule declares, and every
node has the style that it has by the theme if the rule names the group instead.  Otherwise
the error of the rule is worded as the first failure of the entry. -/
theorem FieldTexts.entry_agrees_with_rule {validator : RecordValidator}
    (laws : validator.Laws) (texts : FieldTexts) (given : texts.fields ≠ [])
    (admitted : ∀ field ∈ texts.fields, field.1.Admits field.2) {kind : String}
    (named : Scan.isIdentifier kind.toList = true) (group : Highlight) :
    (∃ (theme : Theme) (declared mentioned : Stylesheet) (style : SpecifiedStyle),
      Theme.ofMapping validator [(.text group.name, .mapping texts.entries)] = .ok theme ∧
      Stylesheet.ofString (Stylesheet.fieldRule kind texts.fields) = .ok declared ∧
      Stylesheet.ofString (kind ++ ": " ++ group.name ++ ";") = .ok mentioned ∧
      theme.lookup group = some style.val ∧ declared = .forKind kind (.properties style) ∧
      ∀ (Node : Type) (view : TreeView Node) (base : Theme) (node : Node),
        (resolve view declared base node).style = (resolve view mentioned theme node).style ∧
        (view.kind node = kind →
          (resolve view declared base node).style = Style.merge {} style.val)) ∨
    ∃ failure errors error,
      Theme.ofMapping validator [(.text group.name, .mapping texts.entries)] =
        .error (.invalidEntry (.text group.name) (failure :: errors)) ∧
      Stylesheet.ofString (Stylesheet.fieldRule kind texts.fields) = .error error ∧
      failure.reason = .refused error.message := by
  have agrees := texts.agrees_readEntry laws (.text group.name)
  have entry := Theme.ofMapping_entry validator group (.mapping texts.entries)
  generalize Theme.readEntry validator (.text group.name) (.mapping texts.entries) = stated
    at agrees entry
  rcases Stylesheet.ofString_fieldRule named given texts.nodup_fields admitted with
    ⟨style, specified, read, declared⟩ | ⟨error, read, refused⟩
  · rw [read] at agrees
    cases agrees
    have found := Theme.lookup_insert_self {} group style
    refine .inl ⟨_, _, _, ⟨style, specified⟩, entry, declared,
      Stylesheet.ofString_groupRule named group, found, rfl, ?_⟩
    intro Node view base node
    rw [resolve_forKind, resolve_forKind, Declaration.style?, Declaration.style?, found]
    refine ⟨rfl, fun same => ?_⟩
    rw [same, beq_self_eq_true, if_pos rfl]
    rfl
  · rw [read] at agrees
    cases agrees with
    | refused worded => exact .inr ⟨_, _, error, entry, refused, by rw [worded error rfl]⟩

/-- Texts that state a style, and texts of which the last two fail. -/
theorem FieldTexts.entries_of_texts :
    let stated : FieldTexts := { fg := "#0a0B0c", attr := "bold|Slow_Blink" }
    let failing : FieldTexts := { fg := "red", bg := "0x1FF", attr := "dim|dim" }
    (∃ theme style,
      Theme.ofMapping .standard [(.text "string", .mapping stated.entries)] = .ok theme ∧
      Stylesheet.ofString "atom: fg: #0a0B0c, attr: bold|Slow_Blink;" =
        .ok (.forKind "atom" (.properties style)) ∧
      theme.lookup .string = some style.val) ∧
    ∃ failure errors error,
      Theme.ofMapping .standard [(.text "string", .mapping failing.entries)] =
        .error (.invalidEntry (.text "string") (failure :: errors)) ∧
      Stylesheet.ofString "atom: fg: red, bg: 0x1FF, attr: dim|dim;" = .error error ∧
      failure.reason = .refused error.message := by
  intro stated failing
  have statedAdmitted : ∀ field ∈ stated.fields, field.1.Admits field.2 := by
    intro field member
    have listed : field ∈ [(Property.fg, "#0a0B0c"), (.attr, "bold|Slow_Blink")] := member
    simp only [List.mem_cons, List.not_mem_nil, or_false] at listed
    rcases listed with rfl | rfl
    · exact ⟨by decide, by decide⟩
    · exact ⟨["bold", "Slow_Blink"], by decide, by decide, by decide⟩
  have failingAdmitted : ∀ field ∈ failing.fields, field.1.Admits field.2 := by
    intro field member
    have listed : field ∈ [(Property.fg, "red"), (.bg, "0x1FF"), (.attr, "dim|dim")] := member
    simp only [List.mem_cons, List.not_mem_nil, or_false] at listed
    rcases listed with rfl | rfl | rfl
    · exact ⟨by decide, by decide⟩
    · exact ⟨by decide, by decide⟩
    · exact ⟨["dim", "dim"], by decide, by decide, by decide⟩
  have made :
      (Theme.ofMapping .standard [(.text "string", .mapping stated.entries)]).toBool = true := by
    decide
  have failed :
      (Theme.ofMapping .standard [(.text "string", .mapping failing.entries)]).toBool = false := by
    decide
  constructor
  · rcases stated.entry_agrees_with_rule RecordValidator.standard_laws (by decide) statedAdmitted
        (show Scan.isIdentifier "atom".toList = true by decide) .string with
      ⟨theme, _, _, style, ok, read, _, found, rfl, _⟩ | ⟨_, _, _, error, _⟩
    · exact ⟨theme, style, ok, read, found⟩
    · rw [show Highlight.string.name = "string" from rfl] at error
      rw [error] at made
      cases made
  · rcases failing.entry_agrees_with_rule RecordValidator.standard_laws (by decide) failingAdmitted
        (show Scan.isIdentifier "atom".toList = true by decide) .string with
      ⟨_, _, _, _, ok, _⟩ | refused
    · rw [show Highlight.string.name = "string" from rfl] at ok
      rw [ok] at failed
      cases failed
    · exact refused

end TreeStyle
