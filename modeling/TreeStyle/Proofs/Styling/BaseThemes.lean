import TreeStyle.Proofs.Grammar.Acceptance
import TreeStyle.Proofs.Styling.EntryFields

/-!
# Base themes as a whole

A mapping states a base theme if every name in it is the name of a group and every entry
states a style.  Entries are read one after the other, so the first one that is not
accepted decides on the error, by its name before its content.  The names of a mapping are
distinct, so each entry gets a row of its own in the theme.

This is so by any validator that keeps the laws.

Main statements: `Theme.rows_of_ofMapping`, `Theme.ofMapping_refuses_first` and
`Theme.ofMapping_accepts_all_or_refuses_first`.
-/

namespace TreeStyle

set_option autoImplicit false

namespace Theme

/-! ## One entry more -/

/-- A mapping with texts for keys. -/
def underTexts (entries : List (String × Value)) : List (Value × Value) :=
  entries.map fun entry => (.text entry.1, entry.2)

/-- A row of a theme that an entry states under its name. -/
structure RowStates (entry : String × Value) (row : Highlight × PartialStyle) : Prop where
  named : row.1.name = entry.1
  stated : EntryStates entry.2 row.2

/-- Why an entry is refused under its name: for the name, whatever it holds, or for what it
holds. -/
inductive Refuses (segmentOf : Value → Segment) : String × Value → ThemeError → Prop where
  | name {name : String} {entry : Value} (unknown : ∀ group : Highlight, group.name ≠ name) :
      Refuses segmentOf (name, entry) (.unknownGroup name)
  | content {group : Highlight} {entry : Value} {errors : List FieldError} (failing : errors ≠ [])
      (all : ∀ error, error ∈ errors ↔ EntryFails segmentOf entry error) :
      Refuses segmentOf (group.name, entry) (.invalidEntry (.text group.name) errors)

/-- An entry states one style, since it is read as what it states. -/
theorem EntryStates.unique {entry : Value} {style other : PartialStyle}
    (states : EntryStates entry style) (also : EntryStates entry other) : style = other := by
  have read := @readEntry_eq_ok_iff _ RecordValidator.standard_laws .nothing entry
  exact Except.ok.inj ((read.mpr states).symm.trans (read.mpr also))

theorem RowStates.unique {entry : String × Value} {row other : Highlight × PartialStyle}
    (states : RowStates entry row) (also : RowStates entry other) : row = other := by
  obtain ⟨group, style⟩ := row
  obtain ⟨otherGroup, otherStyle⟩ := other
  have named : group.name = otherGroup.name := states.named.trans also.named.symm
  have groups : some group = some otherGroup := by
    rw [← Highlight.ofName?_name, named, Highlight.ofName?_name]
  have styles : style = otherStyle := states.stated.unique also.stated
  cases groups
  cases styles
  rfl

/-- A name that no group has is refused before its entry is looked at. -/
theorem Refuses.eq_unknownGroup {segmentOf : Value → Segment} {entry : String × Value}
    {error : ThemeError} (refuses : Refuses segmentOf entry error)
    (unknown : ∀ group : Highlight, group.name ≠ entry.1) : error = .unknownGroup entry.1 := by
  cases refuses with
  | name => rfl
  | content => exact absurd rfl (unknown _)

theorem groupOf_text (name : String) :
    groupOf (.text name) =
      match Highlight.ofName? name with
      | some group => .ok group
      | none => .error (.unknownGroup name) := by
  cases found : Highlight.ofName? name <;> simp only [groupOf, Value.text?_text, found]

theorem groupOf_text_eq_ok_iff {name : String} {group : Highlight} :
    groupOf (.text name) = .ok group ↔ group.name = name := by
  have found : Highlight.ofName? name = some group ↔ group.name = name :=
    Highlight.ofName?_eq_some_iff.trans eq_comm
  rw [← found, groupOf_text]
  cases Highlight.ofName? name <;> simp

theorem groupOf_text_eq_error_iff {name : String} {error : ThemeError} :
    groupOf (.text name) = .error error ↔
      (∀ group : Highlight, group.name ≠ name) ∧ error = .unknownGroup name := by
  have missing : Highlight.ofName? name = none ↔ ∀ group : Highlight, group.name ≠ name := by
    simp only [Option.eq_none_iff_forall_ne_some, ne_eq, Highlight.ofName?_eq_some_iff,
      @eq_comm String name]
  rw [← missing, groupOf_text]
  cases Highlight.ofName? name <;> simp [eq_comm]

section Entries

variable {validator : RecordValidator} (laws : validator.Laws)

section Entry

variable {theme : Theme} {entry : String × Value}
include laws

theorem readNamedEntry_eq_ok_iff {made : Theme} :
    readNamedEntry validator theme (.text entry.1, entry.2) = .ok made ↔
      ∃ row, RowStates entry row ∧ made = theme.insert row.1 row.2 := by
  rw [readNamedEntry, bind_eq_ok_iff]
  constructor
  · rintro ⟨group, named, read⟩
    obtain ⟨style, stated, made⟩ := bind_eq_ok_iff.mp read
    exact ⟨(group, style),
      ⟨groupOf_text_eq_ok_iff.mp named, (readEntry_eq_ok_iff laws).mp stated⟩,
      (Except.ok.inj made).symm⟩
  · rintro ⟨⟨group, style⟩, ⟨named, stated⟩, rfl⟩
    exact ⟨group, groupOf_text_eq_ok_iff.mpr named,
      bind_eq_ok_iff.mpr ⟨style, (readEntry_eq_ok_iff laws).mpr stated, rfl⟩⟩

theorem refuses_of_readNamedEntry {error : ThemeError}
    (failed : readNamedEntry validator theme (.text entry.1, entry.2) = .error error) :
    Refuses validator.segmentOf entry error := by
  obtain ⟨name, value⟩ := entry
  rcases bind_eq_error_iff.mp failed with nameless | ⟨group, named, refused⟩
  · obtain ⟨unknown, rfl⟩ := groupOf_text_eq_error_iff.mp nameless
    exact .name unknown
  · cases groupOf_text_eq_ok_iff.mp named
    rcases bind_eq_error_iff.mp refused with unread | ⟨style, _, inserted⟩
    · obtain ⟨errors, rfl, failing, all⟩ := report_of_readEntry_eq_error laws unread
      exact .content failing all
    · cases inserted

end Entry

/-! ## All entries -/

variable {entries : List (String × Value)} {theme : Theme}

/-- The row of a group that is new comes last. -/
theorem entries_insert_of_fresh {group : Highlight} (style : PartialStyle)
    (fresh : ∀ row ∈ theme.entries, row.1 ≠ group) :
    (theme.insert group style).entries = theme.entries ++ [(group, style)] := by
  rw [insert, List.filter_eq_self.mpr]
  intro row member
  simpa using fresh row member

section Folds

include laws

/-- **All entries are read exactly if each of them states a row.** -/
theorem exists_foldlM_iff :
    (∃ made, (underTexts entries).foldlM (readNamedEntry validator) theme = .ok made) ↔
      ∀ entry ∈ entries, ∃ row, RowStates entry row := by
  induction entries generalizing theme with
  | nil => exact ⟨fun _ => nofun, fun _ => ⟨theme, rfl⟩⟩
  | cons entry entries ih =>
    rw [List.forall_mem_cons]
    constructor
    · rintro ⟨made, read⟩
      obtain ⟨next, taken, later⟩ := bind_eq_ok_iff.mp read
      obtain ⟨row, states, -⟩ := (readNamedEntry_eq_ok_iff laws).mp taken
      exact ⟨⟨row, states⟩, ih.mp ⟨made, later⟩⟩
    · rintro ⟨⟨row, states⟩, others⟩
      obtain ⟨made, later⟩ := (@ih (theme.insert row.1 row.2)).mpr others
      exact ⟨made, bind_eq_ok_iff.mpr
        ⟨_, (readNamedEntry_eq_ok_iff laws).mpr ⟨row, states, rfl⟩, later⟩⟩

/-- Entries with names that are new each add the row that they state. -/
theorem forall₂_of_foldlM {made : Theme} (distinct : (entries.map Prod.fst).Nodup)
    (fresh : ∀ row ∈ theme.entries, row.1.name ∉ entries.map Prod.fst)
    (read : (underTexts entries).foldlM (readNamedEntry validator) theme = .ok made) :
    ∃ rows, made.entries = theme.entries ++ rows ∧ List.Forall₂ RowStates entries rows := by
  induction entries generalizing theme with
  | nil =>
    cases read
    exact ⟨[], (List.append_nil _).symm, .nil⟩
  | cons entry entries ih =>
    obtain ⟨next, taken, later⟩ := bind_eq_ok_iff.mp read
    obtain ⟨row, states, rfl⟩ := (readNamedEntry_eq_ok_iff laws).mp taken
    rw [List.map_cons] at distinct fresh
    obtain ⟨new, distinct⟩ := List.nodup_cons.mp distinct
    have added : (theme.insert row.1 row.2).entries = theme.entries ++ [row] := by
      refine entries_insert_of_fresh row.2 fun other member same => fresh other member ?_
      rw [same, states.named]
      exact List.mem_cons_self
    have stillFresh : ∀ other ∈ (theme.insert row.1 row.2).entries,
        other.1.name ∉ entries.map Prod.fst := by
      intro other member
      rw [added, List.mem_append, List.mem_singleton] at member
      rcases member with old | rfl
      · exact fun listed => fresh other old (List.mem_cons_of_mem _ listed)
      · rw [states.named]
        exact new
    obtain ⟨rows, made_eq, each⟩ := ih distinct stillFresh later
    refine ⟨row :: rows, ?_, .cons states each⟩
    rw [made_eq, added, List.append_assoc, List.singleton_append]

end Folds

section Rows

variable {rows : List (Highlight × PartialStyle)}

/-- A row that is the only one for its group is found. -/
theorem lookup_eq_some_iff_mem (distinct : (rows.map Prod.fst).Nodup) {group : Highlight}
    {style : PartialStyle} : lookup ⟨rows⟩ group = some style ↔ (group, style) ∈ rows := by
  induction rows with
  | nil => exact ⟨nofun, nofun⟩
  | cons row rows ih =>
    obtain ⟨other, otherStyle⟩ := row
    obtain ⟨new, distinct⟩ := List.nodup_cons.mp distinct
    by_cases same : other = group
    · subst same
      have absent : (other, style) ∉ rows :=
        fun listed => new (List.mem_map.mpr ⟨_, listed, rfl⟩)
      simp [lookup, absent, eq_comm]
    · rw [List.mem_cons, ← ih distinct]
      simp [lookup, same, Ne.symm same]

variable (pairs : List.Forall₂ RowStates entries rows)
include pairs

theorem mem_rows_iff {row : Highlight × PartialStyle} :
    row ∈ rows ↔ ∃ entry ∈ entries, RowStates entry row := by
  induction pairs with
  | nil => simp
  | cons states _ ih =>
    rw [List.mem_cons, List.exists_mem_cons_iff, ih]
    exact or_congr_left ⟨fun same => same ▸ states, fun also => also.unique states⟩

theorem nodup_rows (distinct : (entries.map Prod.fst).Nodup) : (rows.map Prod.fst).Nodup := by
  have names : (rows.map Prod.fst).map Highlight.name = entries.map Prod.fst := by
    clear distinct
    induction pairs with
    | nil => rfl
    | cons states _ ih => rw [List.map_cons, List.map_cons, List.map_cons, states.named, ih]
  rw [← names] at distinct
  exact List.Pairwise.of_map _ (fun _ _ apart same => apart (congrArg _ same)) distinct

end Rows

include laws in
/-- **The theme of entries with distinct names** has a row for each of them, in order, and so
the style that an entry states under the name of a group. -/
theorem rows_of_ofMapping {theme : Theme} (distinct : (entries.map Prod.fst).Nodup)
    (read : ofMapping validator (underTexts entries) = .ok theme) :
    List.Forall₂ RowStates entries theme.entries ∧ ∀ group style,
      theme.lookup group = some style ↔ ∃ entry ∈ entries, RowStates entry (group, style) := by
  obtain ⟨rows, same, pairs⟩ :=
    forall₂_of_foldlM laws distinct (fun _ member => absurd member List.not_mem_nil) read
  obtain ⟨_⟩ := theme
  cases same
  refine ⟨pairs, fun group style => ?_⟩
  exact (lookup_eq_some_iff_mem (nodup_rows pairs distinct)).trans (mem_rows_iff pairs)

include laws in
/-- **The first entry that states no row decides on the error.** -/
theorem ofMapping_refuses_first {before after : List (String × Value)} {entry : String × Value}
    (accepted : ∀ other ∈ before, ∃ row, RowStates other row)
    (offending : ¬∃ row, RowStates entry row) :
    ∃ error, ofMapping validator (underTexts (before ++ entry :: after)) = .error error ∧
      Refuses validator.segmentOf entry error := by
  obtain ⟨reached, read⟩ := (@exists_foldlM_iff _ laws before {}).mpr accepted
  cases failed : readNamedEntry validator reached (.text entry.1, entry.2) with
  | ok made =>
    obtain ⟨row, states, -⟩ := (readNamedEntry_eq_ok_iff laws).mp failed
    exact absurd ⟨row, states⟩ offending
  | error error =>
    refine ⟨error, foldlM_eq_error_iff.mpr ?_, refuses_of_readNamedEntry laws failed⟩
    exact ⟨_, _, underTexts after, reached, List.map_append, read, failed⟩

include laws in
/-- An error of a base theme is that of one of its entries. -/
theorem refuses_of_ofMapping {error : ThemeError}
    (failed : ofMapping validator (underTexts entries) = .error error) :
    ∃ entry, Refuses validator.segmentOf entry error := by
  obtain ⟨before, entry, after, reached, split, -, refused⟩ := foldlM_eq_error_iff.mp failed
  obtain ⟨_, _, _, _, same⟩ := List.map_eq_append_iff.mp split
  obtain ⟨named, _, _, rfl, _⟩ := List.map_eq_cons_iff.mp same
  exact ⟨named, refuses_of_readNamedEntry laws refused⟩

end Entries

/-! ## Whole themes -/

/-- **A base theme is read as a whole or not at all**, by any validator that keeps the laws.
It is read exactly if every entry states a row.  Then each entry has a row of its own, in
order, and a group has the style that the entry under its name states.  Otherwise the first
entry that states no row decides on the error.  No text that was kept is refused when it is
read again. -/
theorem ofMapping_accepts_all_or_refuses_first {validator : RecordValidator}
    (laws : validator.Laws) (entries : List (String × Value))
    (distinct : (entries.map Prod.fst).Nodup) :
    ((∃ theme, ofMapping validator (underTexts entries) = .ok theme) ↔
      ∀ entry ∈ entries, ∃ row, RowStates entry row) ∧
    (∀ theme, ofMapping validator (underTexts entries) = .ok theme →
      List.Forall₂ RowStates entries theme.entries ∧ ∀ group style,
        theme.lookup group = some style ↔ ∃ entry ∈ entries, RowStates entry (group, style)) ∧
    (∀ before entry after, entries = before ++ entry :: after →
      (∀ other ∈ before, ∃ row, RowStates other row) → (¬∃ row, RowStates entry row) →
      ∃ error, ofMapping validator (underTexts entries) = .error error ∧
        Refuses validator.segmentOf entry error) ∧
    ∀ reason, ofMapping validator (underTexts entries) ≠ .error (.refusedText reason) := by
  refine ⟨exists_foldlM_iff laws, fun theme => rows_of_ofMapping laws distinct, ?_, ?_⟩
  · rintro before entry after rfl
    exact ofMapping_refuses_first laws
  · intro reason failed
    obtain ⟨_, refuses⟩ := refuses_of_ofMapping laws failed
    cases refuses

/-- Two entries that are read, and a third one that is refused for its name, although it is
no mapping either. -/
theorem ofMapping_of_misnamed_third :
    let first := [
      ("tab-select", Value.mapping [(.text "fg", .text "black"), (.text "bg", .integer 214)]),
      ("comment", .truth false)]
    let last := ("strings", Value.bytes [7])
    (first.map Prod.fst).Nodup ∧ ((first ++ [last]).map Prod.fst).Nodup ∧
      (∃ theme, ofMapping .standard (underTexts first) = .ok theme ∧
        List.Forall₂ RowStates first theme.entries ∧
        theme.lookup .tabSelect = some { fg := some (.named .black), bg := some (.ansi 214) }) ∧
      ofMapping .standard (underTexts (first ++ [last])) = .error (.unknownGroup "strings") := by
  intro first last
  have stated : (ofMapping .standard (underTexts first)).toOption.bind (lookup · .tabSelect) =
      some { fg := some (.named .black), bg := some (.ansi 214) } := by decide +kernel
  obtain ⟨theme, made, found⟩ := Option.bind_eq_some_iff.mp stated
  have read : ofMapping .standard (underTexts first) = .ok theme := by
    cases outcome : ofMapping .standard (underTexts first) with
    | ok other =>
      rw [outcome] at made
      exact congrArg Except.ok (Option.some.inj made)
    | error error =>
      rw [outcome] at made
      cases made
  have nameless (group : Highlight) : group.name ≠ "strings" := by cases group <;> decide
  obtain ⟨accepts, rows, -, -⟩ :=
    ofMapping_accepts_all_or_refuses_first RecordValidator.standard_laws first (by decide)
  obtain ⟨-, -, refuses, -⟩ := ofMapping_accepts_all_or_refuses_first
    RecordValidator.standard_laws (first ++ [last]) (by decide)
  refine ⟨by decide, by decide, ⟨theme, read, (rows theme read).1, found⟩, ?_⟩
  obtain ⟨error, failed, reason⟩ := refuses first last [] rfl (accepts.mp ⟨theme, read⟩)
    fun ⟨row, states⟩ => nameless row.1 states.named
  rw [failed, reason.eq_unknownGroup nameless]

end Theme

end TreeStyle
