import Mathlib.Data.List.Forall2
import TreeStyle.Proofs.Styling.Pass

/-!
# What the cascade makes of the rules that match

The rules that count for a node are those that match it and whose declaration states a
partial style, be it by properties of its own or by an entry of the base theme.  Each of
them is merged into the style in file order.  So the style has each colour from the last
of the partial styles that specifies it, and it has the attributes of all of them.

What a declaration states is read off the entries that a base theme lists, the first one
of a group being the one that counts (`Declaration.States`).  A group without an entry
states nothing.  Its rule cannot be told from one whose group has an entry that specifies
nothing, and the rules after it count as if it were not there.

Main statement: `TreeView.Keyed.resolve_style_eq_contributions`.
-/

namespace TreeStyle

set_option autoImplicit false

/-! ## Merging -/

namespace Style

/-- **A field that partial styles replace is as the last of them has it** that specifies it. -/
theorem foldl_merge_replaced {Value : Type} (field : Style → Option Value)
    (specified : PartialStyle → Option Value)
    (replaces : ∀ base override, field (base.merge override) = (specified override).or (field base))
    (base : Style) (contributions : List PartialStyle) :
    field (contributions.foldl merge base) =
      ((contributions.filterMap specified).getLast?).or (field base) := by
  induction contributions generalizing base with
  | nil => rfl
  | cons contribution contributions ih =>
    rw [List.foldl_cons, ih, replaces]
    cases stated : specified contribution with
    | none => rw [List.filterMap_cons_none stated, Option.none_or]
    | some value =>
      rw [List.filterMap_cons_some stated, List.getLast?_cons]
      cases (contributions.filterMap specified).getLast? <;> rfl

theorem mem_attrs_merge (base : Style) (override : PartialStyle) (flag : Attribute) :
    flag ∈ (base.merge override).attrs ↔
      flag ∈ base.attrs ∨ ∃ attrs, override.attrs = some attrs ∧ flag ∈ attrs := by
  unfold merge
  cases stated : override.attrs with
  | none => simp
  | some attrs => simp [AttributeSet.mem_union]

/-- **Attributes come from all partial styles.** -/
theorem mem_attrs_foldl_merge (base : Style) (contributions : List PartialStyle)
    (flag : Attribute) :
    flag ∈ (contributions.foldl merge base).attrs ↔
      flag ∈ base.attrs ∨ ∃ contribution ∈ contributions,
        ∃ attrs, contribution.attrs = some attrs ∧ flag ∈ attrs := by
  induction contributions generalizing base with
  | nil => simp
  | cons contribution contributions ih =>
    rw [List.foldl_cons, ih, mem_attrs_merge, or_assoc]
    simp

end Style

/-! ## Rules that count -/

/-- The partial style that a declaration states: its own, or the entry of its group. -/
def Declaration.style? (theme : Theme) : Declaration → Option PartialStyle
  | highlight group => theme.lookup group
  | properties style => some style.val

/-- The first rule is merged if its declaration states something, and is left out otherwise. -/
theorem combine_cons (theme : Theme) (base : Style) (rule : Rule) (rules : List Rule) :
    combine theme base (rule :: rules) =
      combine theme ((rule.declaration.style? theme).elim base base.merge) rules := by
  rw [combine, combine, List.foldl_cons]
  congr 1
  cases rule.declaration with
  | properties style => rfl
  | highlight group =>
    simp only [Declaration.contribution, Declaration.style?]
    cases theme.lookup group <;> rfl

/-- Only what declarations state is merged. -/
theorem combine_eq_foldl (theme : Theme) (base : Style) (rules : List Rule) :
    combine theme base rules =
      (rules.filterMap fun rule => rule.declaration.style? theme).foldl Style.merge base := by
  induction rules generalizing base with
  | nil => rfl
  | cons rule rules ih =>
    rw [combine_cons, ih, List.filterMap_cons]
    cases rule.declaration.style? theme <;> rfl

/-- The rules that are found make the style, those that state nothing left out. -/
theorem resolve_style_eq_foldl {Node : Type} (view : TreeView Node) (sheet : Stylesheet)
    (theme : Theme) (node : Node) :
    (resolve view sheet theme node).style =
      ((matchingRules view sheet node).filterMap fun entry =>
        entry.2.declaration.style? theme).foldl Style.merge {} := by
  change combine theme {} ((matchingRules view sheet node).map Prod.snd) = _
  rw [combine_eq_foldl, List.filterMap_map]
  rfl

/-! ## Entries that count -/

/-- A group has the entry that is listed first under its name, and no other. -/
theorem Theme.lookup_eq_some_iff {theme : Theme} {group : Highlight} {style : PartialStyle} :
    theme.lookup group = some style ↔
      ∃ front back, theme.entries = front ++ (group, style) :: back ∧
        ∀ entry ∈ front, entry.1 ≠ group := by
  simp only [lookup, Option.map_eq_some_iff, Prod.exists, List.find?_eq_some_iff_append]
  constructor
  · rintro ⟨found, _, ⟨same, front, back, listed, others⟩, rfl⟩
    obtain rfl : found = group := by simpa using same
    exact ⟨front, back, listed, fun entry before => by simpa using others entry before⟩
  · rintro ⟨front, back, listed, others⟩
    exact ⟨group, style, ⟨by simp, front, back, listed,
      fun entry before => by simpa using others entry before⟩, rfl⟩

theorem Theme.lookup_eq_none_iff {theme : Theme} {group : Highlight} :
    theme.lookup group = none ↔ ∀ entry ∈ theme.entries, entry.1 ≠ group := by
  simp [lookup]

/-- A declaration states the style of its own properties, or of the first entry that the
base theme lists for its group. -/
inductive Declaration.States (theme : Theme) : Declaration → PartialStyle → Prop where
  | own (style : SpecifiedStyle) :
    States theme (.properties style) style.val
  | borrowed {group : Highlight} {style : PartialStyle}
    {front back : List (Highlight × PartialStyle)}
    (listed : theme.entries = front ++ (group, style) :: back)
    (first : ∀ entry ∈ front, entry.1 ≠ group) :
    States theme (.highlight group) style

/-- Whether a declaration has properties of its own, or the base theme an entry of its group. -/
def Declaration.isStated (theme : Theme) : Declaration → Bool
  | highlight group => theme.entries.any fun entry => entry.1 == group
  | properties _ => true

theorem Declaration.states_iff {theme : Theme} {declaration : Declaration} {style : PartialStyle} :
    declaration.States theme style ↔ declaration.style? theme = some style := by
  cases declaration with
  | properties own =>
    constructor
    · rintro ⟨⟩
      rfl
    · rintro ⟨⟩
      exact .own own
  | highlight group =>
    rw [style?, Theme.lookup_eq_some_iff]
    constructor
    · rintro ⟨⟩
      exact ⟨_, _, ‹_›, ‹_›⟩
    · rintro ⟨front, back, listed, first⟩
      exact .borrowed listed first

theorem Declaration.isStated_eq (theme : Theme) (declaration : Declaration) :
    declaration.isStated theme = (declaration.style? theme).isSome := by
  cases declaration with
  | properties own => rfl
  | highlight group =>
    rw [isStated, style?, Theme.lookup, Option.isSome_map, Bool.eq_iff_iff, List.find?_isSome,
      List.any_eq_true]

/-- An entry that specifies nothing, of a group that has no other, changes no other group. -/
theorem Theme.lookup_added {theme : Theme} {group : Highlight}
    {front back : List (Highlight × PartialStyle)} (entries : theme.entries = front ++ back)
    (missing : ∀ entry ∈ theme.entries, entry.1 ≠ group) (other : Highlight) :
    Theme.lookup ⟨front ++ (group, {}) :: back⟩ other =
      if other = group then some {} else theme.lookup other := by
  have apart (entry : Highlight × PartialStyle) (listed : entry ∈ front) :
      (entry.1 == group) = false := by
    simpa using missing entry (by simp [entries, listed])
  split
  · rename_i same
    rw [same, lookup, List.find?_append, List.find?_eq_none.mpr fun entry listed => by
      simp [apart entry listed]]
    simp
  · rename_i different
    have unequal : (group == other) = false := by simpa using fun equal => different equal.symm
    simp [lookup, entries, List.find?_append, unequal]

/-- A group without an entry is merged as an entry that specifies nothing. -/
theorem combine_added {theme : Theme} {group : Highlight}
    {front back : List (Highlight × PartialStyle)} (entries : theme.entries = front ++ back)
    (missing : ∀ entry ∈ theme.entries, entry.1 ≠ group) (base : Style) (rules : List Rule) :
    combine ⟨front ++ (group, {}) :: back⟩ base rules = combine theme base rules := by
  induction rules generalizing base with
  | nil => rfl
  | cons rule rules ih =>
    rw [combine_cons, combine_cons, ih]
    congr 1
    cases rule.declaration with
    | properties style => rfl
    | highlight other =>
      simp only [Declaration.style?, Theme.lookup_added entries missing]
      split
      · rename_i same
        rw [same, Theme.lookup_eq_none_iff.mpr missing]
        exact Style.merge_unspecified base
      · rfl

section Contributions

variable {Node : Type} (view : TreeView Node)

/-- The rules that count for a node, in file order: one of their selectors matches, and
their declaration states a partial style. -/
def Stylesheet.effective (sheet : Stylesheet) (theme : Theme) (node : Node) : List Rule :=
  sheet.rules.filter fun rule =>
    rule.selectors.any (fun chain => chainMatches view chain node) &&
      rule.declaration.isStated theme

/-- What the rules that count state is what the declarations of matching rules have. -/
theorem Stylesheet.effective_contributions {theme : Theme} {sheet : Stylesheet} {node : Node}
    {contributions : List PartialStyle} :
    List.Forall₂ (fun rule style => rule.declaration.States theme style)
        (sheet.effective view theme node) contributions ↔
      contributions = (sheet.rules.filter fun rule =>
        rule.selectors.any fun chain => chainMatches view chain node).filterMap
          fun rule => rule.declaration.style? theme := by
  simp only [Declaration.states_iff, effective, Declaration.isStated_eq]
  induction sheet.rules generalizing contributions with
  | nil => simp
  | cons rule rules ih =>
    rw [List.filter_cons, List.filter_cons]
    cases rule.selectors.any fun chain => chainMatches view chain node with
    | false => simpa using ih
    | true =>
      cases stated : rule.declaration.style? theme with
      | none => simpa [stated] using ih
      | some style =>
        simp only [Option.isSome_some, Bool.and_self, if_true, List.forall₂_cons_left_iff, ih,
          List.filterMap_cons, stated]
        constructor
        · rintro ⟨first, rest, same, rfl, rfl⟩
          rw [Option.some.inj same]
        · rintro rfl
          exact ⟨_, _, rfl, rfl, rfl⟩

end Contributions

namespace TreeView.Keyed

variable {Node : Type} {view : TreeView Node} {member : Node → Prop}
  (keyed : view.Keyed member)
include keyed

/-- What the rules that count for a node state, one partial style for each of them. -/
theorem contributions_eq (sheet : Stylesheet) (theme : Theme) {node : Node}
    (inside : member node) {contributions : List PartialStyle} :
    List.Forall₂ (fun rule style => rule.declaration.States theme style)
        (sheet.effective view theme node) contributions ↔
      contributions = (sheet.rules.filter fun rule => rule.holds view node).filterMap
        fun rule => rule.declaration.style? theme := by
  have same (rule : Rule) :
      rule.selectors.any (fun chain => chainMatches view chain node) = rule.holds view node := by
    simp only [Rule.holds, keyed.chainMatches_eq_holds _ inside]
  rw [Stylesheet.effective_contributions]
  simp only [same]

/-- By a memo of the pass, a style is what the rules that match it state. -/
theorem resolveWith_style_eq_foldl {sheet : Stylesheet} {memo : Memo}
    (pass : memo.OfPass view member sheet) (theme : Theme) {node : Node} (inside : member node) :
    (resolveWith view sheet theme node memo).1.style =
      ((sheet.rules.filter fun rule => rule.holds view node).filterMap
        fun rule => rule.declaration.style? theme).foldl Style.merge {} := by
  have sound := keyed.searchable.sound_of_pass pass
  rw [keyed.searchable.resolveWith_style sheet theme inside sound, Stylesheet.styleOf,
    combine_eq_foldl]

/-- A rule that states nothing might as well not be in the sheet. -/
theorem resolveWith_style_delete {before after : List Rule} {rule : Rule} {theme : Theme}
    (stateless : rule.declaration.style? theme = none) {memo other : Memo}
    (pass : memo.OfPass view member ⟨before ++ rule :: after⟩)
    (otherPass : other.OfPass view member ⟨before ++ after⟩) {node : Node}
    (inside : member node) :
    (resolveWith view ⟨before ++ after⟩ theme node other).1.style =
      (resolveWith view ⟨before ++ rule :: after⟩ theme node memo).1.style := by
  rw [keyed.resolveWith_style_eq_foldl otherPass theme inside,
    keyed.resolveWith_style_eq_foldl pass theme inside]
  congr 1
  cases holds : rule.holds view node <;> simp [holds, stateless]

/-- A group that is missing might as well have an entry that specifies nothing. -/
theorem resolveWith_style_added {sheet : Stylesheet} {theme : Theme} {group : Highlight}
    {front back : List (Highlight × PartialStyle)} (entries : theme.entries = front ++ back)
    (missing : ∀ entry ∈ theme.entries, entry.1 ≠ group) {memo other : Memo}
    (pass : memo.OfPass view member sheet) (otherPass : other.OfPass view member sheet)
    {node : Node} (inside : member node) :
    (resolveWith view sheet ⟨front ++ (group, {}) :: back⟩ node other).1.style =
      (resolveWith view sheet theme node memo).1.style := by
  have searchable := keyed.searchable
  rw [searchable.resolveWith_style sheet _ inside (searchable.sound_of_pass otherPass),
    searchable.resolveWith_style sheet _ inside (searchable.sound_of_pass pass),
    Stylesheet.styleOf, combine_added entries missing, Stylesheet.styleOf]

/-- **The cascade.**  By any memo of the pass, the style of a node has each colour from
the last rule that counts and specifies it, and the attributes of all rules that count.
A group that the base theme does not list is no failure, and stops no later rule: its
rule might as well not be in the sheet, or the base theme might list, at any place, an
entry of it that specifies nothing. -/
theorem resolve_style_eq_contributions (sheet : Stylesheet) (theme : Theme) {node : Node}
    (inside : member node) {memo : Memo} (pass : memo.OfPass view member sheet) :
    let style := (resolveWith view sheet theme node memo).1.style
    (∃ contributions : List PartialStyle,
      List.Forall₂ (fun rule stated => rule.declaration.States theme stated)
        (sheet.effective view theme node) contributions ∧
      style.fg = (contributions.filterMap PartialStyle.fg).getLast? ∧
      style.bg = (contributions.filterMap PartialStyle.bg).getLast? ∧
      ∀ flag, flag ∈ style.attrs ↔
        ∃ contribution ∈ contributions,
          ∃ attrs, contribution.attrs = some attrs ∧ flag ∈ attrs) ∧
      ∀ (before : List Rule) (rule : Rule) (after : List Rule) (group : Highlight),
        sheet.rules = before ++ rule :: after → rule.declaration = .highlight group →
        (∀ entry ∈ theme.entries, entry.1 ≠ group) →
          (∀ other, Memo.OfPass view member ⟨before ++ after⟩ other →
            (resolveWith view ⟨before ++ after⟩ theme node other).1.style = style) ∧
          ∀ front back, theme.entries = front ++ back →
            ∀ other, Memo.OfPass view member sheet other →
              (resolveWith view sheet ⟨front ++ (group, {}) :: back⟩ node other).1.style =
                style := by
  intro style
  have made : style = _ := keyed.resolveWith_style_eq_foldl pass theme inside
  refine ⟨⟨_, (keyed.contributions_eq sheet theme inside).mpr rfl, ?_, ?_, ?_⟩, ?_⟩
  · rw [made, Style.foldl_merge_replaced Style.fg PartialStyle.fg fun _ _ => rfl, Option.or_none]
  · rw [made, Style.foldl_merge_replaced Style.bg PartialStyle.bg fun _ _ => rfl, Option.or_none]
  · intro flag
    rw [made, Style.mem_attrs_foldl_merge]
    simp [AttributeSet.not_mem_empty]
  · intro before rule after group rules declared missing
    constructor
    · intro other otherPass
      have stateless : rule.declaration.style? theme = none := by
        rw [declared]
        exact Theme.lookup_eq_none_iff.mpr missing
      obtain ⟨_⟩ := sheet
      obtain rfl := rules
      exact keyed.resolveWith_style_delete stateless pass otherPass inside
    · intro front back entries other otherPass
      exact keyed.resolveWith_style_added entries missing pass otherPass inside

end TreeView.Keyed

/-- Four rules that match the string of a small tree: two with properties, one whose group
has an entry after that of another group, and one whose group has none. -/
theorem Forest.block_string_style :
    let green : PartialStyle :=
      { fg := some (.named .green), bg := some (.named .black),
        attrs := some (.singleton .underlined) }
    let theme : Theme := ⟨[(.comment, { bg := some (.named .grey) }), (.string, green)]⟩
    let red : Rule :=
      ⟨[⟨"block", [(.child, "string")]⟩], .properties
        ⟨{ fg := some (.named .red), attrs := some (.singleton .bold) }, rfl⟩, by decide⟩
    let borrowed : Rule := ⟨[⟨"string", []⟩], .highlight .string, by decide⟩
    let missing : Rule := ⟨[⟨"string", []⟩], .highlight .number, by decide⟩
    let blue : Rule :=
      ⟨[⟨"block", []⟩, ⟨"comment", [(.twin, "string")]⟩], .properties
        ⟨{ fg := some (.named .blue), attrs := some (.singleton .italic) }, rfl⟩, by decide⟩
    let sheet : Stylesheet := ⟨[red, borrowed, missing, blue]⟩
    let memo := (resolveWith block.view sheet theme 0 {}).2
    let style := (resolveWith block.view sheet theme 1 memo).1.style
    style.fg = some (.named .blue) ∧ style.bg = some (.named .black) ∧
      (∀ flag, flag ∈ style.attrs ↔ flag = .bold ∨ flag = .underlined ∨ flag = .italic) ∧
      (resolveWith block.view ⟨[red, borrowed, blue]⟩ theme 1 {}).1.style = style ∧
      (resolveWith block.view sheet ⟨(.number, {}) :: theme.entries⟩ 1 {}).1.style = style := by
  intro green theme red borrowed missing blue sheet memo style
  have keyed := wellFormed_block.toKeyed
  have inside : 1 < 3 := by decide
  have pass : memo.OfPass block.view (· < 3) sheet := .resolved .start theme (by decide)
  obtain ⟨⟨contributions, stated, fg, bg, attrs⟩, without⟩ :=
    keyed.resolve_style_eq_contributions sheet theme inside pass
  have same : contributions =
      [{ fg := some (.named .red), attrs := some (.singleton .bold) }, green,
        { fg := some (.named .blue), attrs := some (.singleton .italic) }] := by
    rw [(keyed.contributions_eq sheet theme inside).mp stated]
    decide
  rw [same] at fg bg attrs
  obtain ⟨deleted, added⟩ :=
    without [red, borrowed] missing [blue] .number rfl rfl (by decide)
  refine ⟨fg, bg, ?_, deleted {} .start, added [] theme.entries rfl {} .start⟩
  intro flag
  rw [attrs flag]
  simp [green, AttributeSet.mem_singleton]

end TreeStyle
