import TreeStyle.Proofs.Grammar.Recognition

/-!
# Stylesheets and their canonical texts

The canonical text of a stylesheet is read back to the stylesheet exactly if it can
be written: its kinds are identifiers, and none of its declarations specifies the
empty set of attributes.  Whatever is read from a source can be written, so writing
what was read is a fixed point after one pass.

A phrase is written by a text if the text spells it wherever no word goes on behind
(`Writes`).  The canonical texts are put together from such texts in the same way as
the phrases are from tokens.

Main statements: `Stylesheet.derives_render`, `Stylesheet.Derives.isWritable` and
`Stylesheet.ofString_render_eq_ok_iff`.
-/

namespace TreeStyle

set_option autoImplicit false

open Grammar

/-! ## What can be written -/

/-- Whether a text has the form of an identifier. -/
def Scan.isIdentifier : List Char → Bool
  | [] => false
  | first :: others => isIdentifierStart first && others.all isWordCharacter

/-- A chain of identifiers. -/
def Chain.IsWritable (chain : Chain) : Prop :=
  ∀ atom ∈ chain.atoms, Scan.isIdentifier atom.toList = true

/-- A style that does not specify the empty set of attributes. -/
def PartialStyle.IsWritable (style : PartialStyle) : Prop :=
  style.attrs ≠ some ∅

def Declaration.IsWritable : Declaration → Prop
  | .highlight _ => True
  | .properties style => style.val.IsWritable

def Rule.IsWritable (rule : Rule) : Prop :=
  (∀ chain ∈ rule.selectors, chain.IsWritable) ∧ rule.declaration.IsWritable

/-- A stylesheet whose kinds are identifiers and whose declarations do not specify the
empty set of attributes. -/
def Stylesheet.IsWritable (sheet : Stylesheet) : Prop :=
  ∀ rule ∈ sheet.rules, rule.IsWritable

theorem Attribute.isIdentifier_name (flag : Attribute) :
    Scan.isIdentifier flag.name.toList = true := by
  cases flag <;> decide

theorem Highlight.isIdentifier_name (group : Highlight) :
    Scan.isIdentifier group.name.toList = true := by
  cases group <;> decide

/-- A word that has the form of an identifier is spelled by its characters. -/
theorem Lexeme.of_isIdentifier {word : String} (named : Scan.isIdentifier word.toList = true) :
    Lexeme (.identifier word) word.toList := by
  have whole : String.ofList word.toList = word := String.ofList_toList
  cases characters : word.toList with
  | nil =>
    rw [characters] at named
    cases named
  | cons first others =>
    rw [characters, Scan.isIdentifier, Bool.and_eq_true, List.all_eq_true] at named
    rw [← whole, characters]
    exact .identifier named.1 named.2

/-! ## Writing tokens -/

theorem Token.MayFollow.nil (token : Token) : token.MayFollow [] := by
  cases token with
  | color literal => exact fun _ member => absurd member List.not_mem_nil
  | _ => exact Gap.nil

theorem Token.MayFollow.space_cons {token : Token} {character : Char} {gap : List Char}
    (blank : Scan.isSpace character = true) (before : token.MayFollow gap) :
    token.MayFollow (character :: gap) := by
  cases token with
  | color literal =>
    intro other member
    rcases List.mem_cons.mp member with rfl | member
    · exact blank
    · exact before other member
  | _ => exact .space blank before

/-- A blank in front makes no difference to what a source spells. -/
theorem Spells.space_cons {tokens : List Token} {character : Char} {text : List Char}
    (blank : Scan.isSpace character = true) (spelled : Spells tokens text) :
    Spells tokens (character :: text) := by
  cases spelled with
  | ending ending => exact .ending (ending.space blank)
  | token first more =>
    obtain ⟨before, spelling, longest⟩ := first
    rw [← List.cons_append]
    exact .token (.intro (before.space_cons blank) spelling longest) more

/-- A text that spells the given tokens wherever no word goes on behind it. -/
def Writes (tokens : List Token) (text : List Char) : Prop :=
  ∀ ⦃later rest⦄, Spells later rest → WordEnds rest → Spells (tokens ++ later) (text ++ rest)

namespace Writes

theorem nil : Writes [] [] := fun _ _ spelled _ => spelled

theorem lexeme {token : Token} {text : List Char} (spelling : Lexeme token text) :
    Writes [token] text := by
  intro later rest spelled ends
  have longest : token.IsLongest rest := by
    cases token with
    | mark symbol => trivial
    | _ => exact ends
  exact .token (.intro (.nil token) spelling longest) spelled

theorem append {first second : List Token} {text more : List Char} (front : Writes first text)
    (back : Writes second more) (ends : WordEnds more) :
    Writes (first ++ second) (text ++ more) := by
  intro later rest spelled stop
  rw [List.append_assoc, List.append_assoc]
  exact front (back spelled stop) (ends.append stop)

theorem mark_cons (symbol : Mark) {tokens : List Token} {text : List Char}
    (written : Writes tokens text) :
    Writes (.mark symbol :: tokens) (symbol.character :: text) := by
  intro later rest spelled stop
  exact .token (.intro (.nil _) (.mark symbol) trivial) (written spelled stop)

theorem space_cons {character : Char} (blank : Scan.isSpace character = true)
    {tokens : List Token} {text : List Char} (written : Writes tokens text) :
    Writes tokens (character :: text) :=
  fun _ _ spelled stop => .space_cons blank (written spelled stop)

theorem blank_cons {tokens : List Token} {text : List Char} (written : Writes tokens text) :
    Writes tokens (' ' :: text) :=
  written.space_cons (by decide)

theorem spaces_append {gap : List Char}
    (spaces : ∀ character ∈ gap, Scan.isSpace character = true) {tokens : List Token}
    {text : List Char} (written : Writes tokens text) : Writes tokens (gap ++ text) := by
  induction gap with
  | nil => exact written
  | cons character gap ih =>
    have later := ih fun other member => spaces other (List.mem_cons_of_mem _ member)
    exact later.space_cons (spaces character List.mem_cons_self)

/-- A mark ends whatever is written in front of it. -/
theorem append_mark (symbol : Mark) {first second : List Token} {text more : List Char}
    (front : Writes first text) (back : Writes second more) :
    Writes (first ++ .mark symbol :: second) (text ++ symbol.character :: more) :=
  front.append (back.mark_cons symbol) (.cons (Scan.isWordCharacter_mark symbol) more)

theorem identifier {word : String} (named : Scan.isIdentifier word.toList = true) :
    Writes [.identifier word] word.toList :=
  .lexeme (.of_isIdentifier named)

/-- What is written is spelled by the text alone. -/
theorem spells {tokens : List Token} {text : List Char} (written : Writes tokens text) :
    Spells tokens text := by
  have alone := written (.ending (.gap .nil)) (fun _ none => by cases none)
  rwa [List.append_nil, List.append_nil] at alone

end Writes

/-! ## Selectors are written -/

theorem Writes.exists_joint (combinator : Combinator) :
    ∃ joint, IsJoint joint combinator ∧ ∀ {tokens : List Token} {text : List Char},
      Writes tokens text → Writes (joint ++ tokens) (combinator.separator.toList ++ text) := by
  cases combinator with
  | twin => exact ⟨_, .twin, fun written => (written.blank_cons.mark_cons .plus).blank_cons⟩
  | sibling => exact ⟨_, .sibling, fun written => (written.blank_cons.mark_cons .tilde).blank_cons⟩
  | child => exact ⟨_, .child, fun written => (written.blank_cons.mark_cons .greater).blank_cons⟩
  | descendant => exact ⟨_, .descendant, fun written => written.blank_cons⟩

/-- A separator starts with a blank. -/
theorem wordEnds_separator (combinator : Combinator) (text : List Char) :
    WordEnds (combinator.separator.toList ++ text) := by
  cases combinator <;> exact .cons (by decide) _

/-- The text of the links of a chain. -/
def linksText (links : List (Combinator × String)) : List Char :=
  links.flatMap fun link => link.1.separator.toList ++ link.2.toList

theorem wordEnds_linksText (links : List (Combinator × String)) : WordEnds (linksText links) := by
  cases links with
  | nil => exact fun _ none => by cases none
  | cons link links =>
    rw [linksText, List.flatMap_cons, List.append_assoc]
    exact wordEnds_separator _ _

theorem Writes.exists_links {links : List (Combinator × String)}
    (named : ∀ link ∈ links, Scan.isIdentifier link.2.toList = true) :
    ∃ tokens, IsLinks tokens links ∧ Writes tokens (linksText links) := by
  induction links with
  | nil => exact ⟨[], .nil, .nil⟩
  | cons link links ih =>
    obtain ⟨combinator, kind⟩ := link
    obtain ⟨tokens, linked, written⟩ := ih fun other member =>
      named other (List.mem_cons_of_mem _ member)
    obtain ⟨joint, joined, before⟩ := Writes.exists_joint combinator
    have word := Writes.identifier (named ⟨combinator, kind⟩ List.mem_cons_self)
    refine ⟨_, .cons joined linked, ?_⟩
    rw [linksText, List.flatMap_cons, List.append_assoc]
    exact before (word.append written (wordEnds_linksText links))

theorem Chain.toList_render (chain : Chain) :
    chain.render.toList = chain.first.toList ++ linksText chain.links := by
  rw [render, String.toList_append, String.toList_join, List.flatMap_map, linksText]
  simp only [String.toList_append]

theorem Writes.exists_selector {chain : Chain} (writable : chain.IsWritable) :
    ∃ tokens, IsSelector tokens chain ∧ Writes tokens chain.render.toList := by
  have word := Writes.identifier (writable chain.first List.mem_cons_self)
  obtain ⟨tokens, linked, written⟩ := Writes.exists_links fun link member =>
    writable link.2 (List.mem_cons_of_mem _ (List.mem_map_of_mem member))
  refine ⟨_, .intro linked, ?_⟩
  rw [Chain.toList_render]
  exact word.append written (wordEnds_linksText chain.links)

/-- Phrases that are written one by one are written with a mark between them, and blanks
after the mark. -/
theorem Writes.exists_separated {Value : Type} {separator : Mark}
    {phrase : List Token → Value → Prop} {text : Value → String} {joint : String}
    (gap : List Char) (joined : joint.toList = separator.character :: gap)
    (spaces : gap.all Scan.isSpace = true) {values : List Value} (nonempty : values ≠ [])
    (each : ∀ value ∈ values,
      ∃ tokens, phrase tokens value ∧ Writes tokens (text value).toList) :
    ∃ tokens, IsSeparated separator phrase tokens values ∧
      Writes tokens (joint.intercalate (values.map text)).toList := by
  induction values with
  | nil => exact absurd rfl nonempty
  | cons value values ih =>
    obtain ⟨first, item, front⟩ := each value List.mem_cons_self
    cases values with
    | nil =>
      refine ⟨first, .single item, ?_⟩
      rw [List.map_cons, List.map_nil, String.intercalate_singleton]
      exact front
    | cons next values =>
      obtain ⟨others, more, back⟩ := ih (List.cons_ne_nil _ _) fun other member =>
        each other (List.mem_cons_of_mem _ member)
      refine ⟨_, .cons item more, ?_⟩
      rw [List.map_cons, List.map_cons, String.intercalate_cons_cons, String.toList_append,
        String.toList_append, List.append_assoc, joined]
      exact front.append_mark separator (back.spaces_append (List.all_eq_true.mp spaces))

theorem Writes.exists_selectorList {chains : List Chain} (nonempty : chains ≠ [])
    (writable : ∀ chain ∈ chains, chain.IsWritable) :
    ∃ tokens, IsSelectorList tokens chains ∧
      Writes tokens (", ".intercalate (chains.map Chain.render)).toList :=
  exists_separated [' '] rfl rfl nonempty fun chain member =>
    exists_selector (writable chain member)

/-! ## Declarations are written -/

theorem Writes.exists_nameList {flags : List Attribute} (nonempty : flags ≠ []) :
    ∃ tokens, IsNameList tokens flags ∧
      Writes tokens ("|".intercalate (flags.map Attribute.name)).toList :=
  exists_separated [] rfl rfl nonempty fun flag _ =>
    ⟨_, .intro flag.ofName?_name, .identifier flag.isIdentifier_name⟩

/-- The text of a setting. -/
def Setting.render : Setting → String
  | .fg color => "fg: " ++ color.render
  | .bg color => "bg: " ++ color.render
  | .attr attrs => "attr: " ++ attrs.render

/-- The settings of a style, in writing order. -/
def PartialStyle.settings (style : PartialStyle) : List Setting :=
  (style.fg.map Setting.fg).toList ++ (style.bg.map Setting.bg).toList ++
    (style.attrs.map Setting.attr).toList

theorem PartialStyle.render_eq_intercalate (style : PartialStyle) :
    style.render = ", ".intercalate (style.settings.map Setting.render) := by
  obtain ⟨fg, bg, attrs⟩ := style
  cases fg <;> cases bg <;> cases attrs <;> rfl

theorem PartialStyle.ofSettings_settings (style : PartialStyle) :
    ofSettings style.settings = style := by
  obtain ⟨fg, bg, attrs⟩ := style
  cases fg <;> cases bg <;> cases attrs <;> rfl

theorem PartialStyle.nodup_settings (style : PartialStyle) :
    (style.settings.map Setting.property).Nodup := by
  obtain ⟨fg, bg, attrs⟩ := style
  cases fg <;> cases bg <;> cases attrs <;> simp [settings, Setting.property]

theorem PartialStyle.settings_ne_nil {style : PartialStyle} (specified : style.isEmpty = false) :
    style.settings ≠ [] := by
  intro none
  rw [← ofSettings_settings style, none] at specified
  cases specified

/-- A writable style has no setting of the empty set of attributes. -/
theorem PartialStyle.IsWritable.setting_ne {style : PartialStyle} (writable : style.IsWritable) :
    ∀ setting ∈ style.settings, setting ≠ .attr ∅ := by
  rintro setting member rfl
  simp only [settings, List.mem_append, Option.mem_toList, Option.map_eq_some_iff, reduceCtorEq,
    and_false, exists_false, false_or, Setting.attr.injEq, exists_eq_right] at member
  exact writable member

theorem Property.hasKey_name (property : Property) : property.HasKey property.name := by
  cases property <;> exact ⟨_, List.mem_cons_self, by decide⟩

/-- A value is written after the name of its field, a colon and a blank. -/
theorem Writes.field (property : Property) {tokens : List Token} {text : List Char}
    (written : Writes tokens text) :
    Writes (.identifier property.name :: .mark .colon :: tokens)
      (property.name.toList ++ Mark.colon.character :: ' ' :: text) := by
  have word : Writes [.identifier property.name] property.name.toList :=
    .identifier (by cases property <;> decide)
  exact word.append_mark .colon written.blank_cons

theorem Writes.exists_property {setting : Setting} (inhabited : setting ≠ .attr ∅) :
    ∃ tokens, IsProperty tokens setting ∧ Writes tokens setting.render.toList := by
  have key := setting.property.hasKey_name
  cases setting with
  | fg color =>
    refine ⟨_, .fg key color.ofString_render, ?_⟩
    rw [Setting.render, String.toList_append]
    exact field .fg (.lexeme color.lexeme_render)
  | bg color =>
    refine ⟨_, .bg key color.ofString_render, ?_⟩
    rw [Setting.render, String.toList_append]
    exact field .bg (.lexeme color.lexeme_render)
  | attr attrs =>
    have members : attrs.toList ≠ [] :=
      AttributeSet.toList_ne_nil fun empty => inhabited (congrArg Setting.attr empty)
    obtain ⟨tokens, names, written⟩ := Writes.exists_nameList members
    have property := IsProperty.attr key names attrs.nodup_toList
    rw [attrs.ofList_toList] at property
    refine ⟨_, property, ?_⟩
    rw [Setting.render, String.toList_append]
    exact field .attr written

theorem Writes.exists_propertyList {settings : List Setting} (nonempty : settings ≠ [])
    (inhabited : ∀ setting ∈ settings, setting ≠ .attr ∅) :
    ∃ tokens, IsPropertyList tokens settings ∧
      Writes tokens (", ".intercalate (settings.map Setting.render)).toList :=
  exists_separated [' '] rfl rfl nonempty fun setting member =>
    exists_property (inhabited setting member)

theorem Writes.exists_declaration {stated : Declaration} (writable : stated.IsWritable) :
    ∃ tokens, IsDeclaration tokens stated ∧ Writes tokens stated.render.toList := by
  cases stated with
  | highlight group => exact ⟨_, .group group, .identifier group.isIdentifier_name⟩
  | properties style =>
    obtain ⟨tokens, listed, written⟩ :=
      Writes.exists_propertyList (PartialStyle.settings_ne_nil style.property)
        (PartialStyle.IsWritable.setting_ne writable)
    refine ⟨tokens, .plain ⟨_, listed, style.val.nodup_settings, style.val.ofSettings_settings⟩, ?_⟩
    rw [Declaration.render, PartialStyle.render_eq_intercalate]
    exact written

/-! ## Rules and stylesheets are written -/

theorem Rule.toList_render (rule : Rule) :
    rule.render.toList = (", ".intercalate (rule.selectors.map Chain.render)).toList ++
      Mark.colon.character :: ' ' ::
        (rule.declaration.render.toList ++ Mark.semicolon.character :: []) := by
  simp only [render, String.toList_append, List.append_assoc]
  rfl

theorem Writes.exists_rule {rule : Rule} (writable : rule.IsWritable) :
    ∃ tokens, IsRule tokens rule ∧ Writes tokens rule.render.toList := by
  obtain ⟨selectors, selected, front⟩ := Writes.exists_selectorList rule.selectors_ne_nil writable.1
  obtain ⟨declaration, declared, back⟩ := Writes.exists_declaration writable.2
  refine ⟨_, .intro selected declared, ?_⟩
  rw [Rule.toList_render]
  exact front.append_mark .colon (back.append_mark .semicolon .nil).blank_cons

theorem Writes.exists_sheet {rules : List Rule} (writable : ∀ rule ∈ rules, rule.IsWritable) :
    ∃ tokens, IsSheet tokens rules ∧
      Writes tokens (Stylesheet.render ⟨rules⟩).toList := by
  induction rules with
  | nil => exact ⟨[], .nil, .nil⟩
  | cons rule rules ih =>
    obtain ⟨first, opening, front⟩ := Writes.exists_rule (writable rule List.mem_cons_self)
    obtain ⟨others, more, back⟩ := ih fun other member =>
      writable other (List.mem_cons_of_mem _ member)
    have lines : (Stylesheet.render ⟨rule :: rules⟩).toList =
        rule.render.toList ++ '\n' :: (Stylesheet.render ⟨rules⟩).toList := by
      simp [Stylesheet.render, String.toList_join]
    refine ⟨_, .cons opening more, ?_⟩
    rw [lines]
    exact front.append (back.space_cons (by decide)) (.cons (by decide) _)

/-- **The canonical text of a writable stylesheet derives the stylesheet.** -/
theorem Stylesheet.derives_render {sheet : Stylesheet} (writable : sheet.IsWritable) :
    Derives sheet.render.toList sheet := by
  obtain ⟨tokens, phrase, written⟩ := Writes.exists_sheet writable
  exact ⟨tokens, written.spells, phrase⟩

/-! ## What is read can be written -/

theorem Lexeme.isIdentifier {word : String} {text : List Char}
    (spelling : Lexeme (.identifier word) text) : Scan.isIdentifier word.toList = true := by
  cases spelling with
  | identifier start others =>
    rw [String.toList_ofList, Scan.isIdentifier, Bool.and_eq_true, List.all_eq_true]
    exact ⟨start, others⟩

/-- The words that a source spells are identifiers. -/
theorem Spells.isIdentifier {tokens : List Token} {text : List Char}
    (spelled : Spells tokens text) {word : String} (member : .identifier word ∈ tokens) :
    Scan.isIdentifier word.toList = true := by
  induction spelled with
  | ending => cases member
  | token first more ih =>
    obtain ⟨before, spelling, longest⟩ := first
    rcases List.mem_cons.mp member with rfl | later
    · exact spelling.isIdentifier
    · exact ih later

namespace Grammar

theorem IsLinks.mem_tokens {tokens : List Token} {links : List (Combinator × String)}
    (linked : IsLinks tokens links) : ∀ link ∈ links, .identifier link.2 ∈ tokens := by
  induction linked with
  | nil => exact fun link member => absurd member List.not_mem_nil
  | @cons joint tokens combinator kind links joined more ih =>
    intro link member
    refine List.mem_append_right joint ?_
    rcases List.mem_cons.mp member with rfl | later
    · exact List.mem_cons_self
    · exact List.mem_cons_of_mem _ (ih link later)

theorem IsSelector.mem_tokens {tokens : List Token} {chain : Chain}
    (selector : IsSelector tokens chain) : ∀ atom ∈ chain.atoms, .identifier atom ∈ tokens := by
  obtain ⟨linked⟩ := selector
  intro atom member
  rcases List.mem_cons.mp member with rfl | later
  · exact List.mem_cons_self
  · obtain ⟨link, listed, rfl⟩ := List.mem_map.mp later
    exact List.mem_cons_of_mem _ (linked.mem_tokens link listed)

/-- Each value of a list has a phrase of its own among the tokens. -/
theorem IsSeparated.exists_phrase {Value : Type} {separator : Mark}
    {phrase : List Token → Value → Prop} {tokens : List Token} {values : List Value}
    (listed : IsSeparated separator phrase tokens values) :
    ∀ value ∈ values, ∃ part, phrase part value ∧ ∀ token ∈ part, token ∈ tokens := by
  induction listed with
  | single only =>
    intro value member
    rw [List.mem_singleton.mp member]
    exact ⟨_, only, fun _ among => among⟩
  | cons item more ih =>
    intro value member
    rcases List.mem_cons.mp member with rfl | later
    · exact ⟨_, item, fun _ among => List.mem_append_left _ among⟩
    · obtain ⟨part, stated, within⟩ := ih value later
      refine ⟨part, stated, fun token among => ?_⟩
      exact List.mem_append_right _ (List.mem_cons_of_mem _ (within token among))

/-- The kinds of selectors are among the words of their phrase. -/
theorem IsSelectorList.mem_tokens {tokens : List Token} {chains : List Chain}
    (selected : IsSelectorList tokens chains) :
    ∀ chain ∈ chains, ∀ atom ∈ chain.atoms, .identifier atom ∈ tokens := by
  intro chain member atom listed
  obtain ⟨part, selector, within⟩ := selected.exists_phrase chain member
  exact within _ (selector.mem_tokens atom listed)

theorem IsNameList.ofList_ne_empty {tokens : List Token} {flags : List Attribute}
    (names : IsNameList tokens flags) : AttributeSet.ofList flags ≠ ∅ := by
  have named : ∃ flag, flag ∈ flags := by
    cases names with
    | single => exact ⟨_, List.mem_cons_self⟩
    | cons => exact ⟨_, List.mem_cons_self⟩
  intro empty
  obtain ⟨flag, listed⟩ := named
  rw [← AttributeSet.mem_ofList, empty] at listed
  exact AttributeSet.not_mem_empty flag listed

theorem IsProperty.setting_ne {tokens : List Token} {setting : Setting}
    (property : IsProperty tokens setting) : setting ≠ .attr ∅ := by
  cases property with
  | fg => simp
  | bg => simp
  | attr _ names _ => exact fun same => names.ofList_ne_empty (Setting.attr.inj same)

theorem IsPropertyList.setting_ne {tokens : List Token} {settings : List Setting}
    (listed : IsPropertyList tokens settings) : ∀ setting ∈ settings, setting ≠ .attr ∅ := by
  intro setting member
  obtain ⟨part, property, _⟩ := listed.exists_phrase setting member
  exact property.setting_ne

end Grammar

theorem PartialStyle.IsWritable.foldl_set {style : PartialStyle} (writable : style.IsWritable)
    {settings : List Setting} (inhabited : ∀ setting ∈ settings, setting ≠ .attr ∅) :
    (settings.foldl set style).IsWritable := by
  induction settings generalizing style with
  | nil => exact writable
  | cons setting settings ih =>
    have kept : (style.set setting).IsWritable := by
      cases setting with
      | fg => exact writable
      | bg => exact writable
      | attr attrs =>
        intro empty
        exact inhabited _ List.mem_cons_self (congrArg Setting.attr (Option.some.inj empty))
    exact ih kept fun other member => inhabited other (List.mem_cons_of_mem _ member)

theorem Grammar.IsStyle.isWritable {tokens : List Token} {style : PartialStyle}
    (stated : IsStyle tokens style) : style.IsWritable := by
  obtain ⟨settings, listed, _, rfl⟩ := stated
  have unset : PartialStyle.IsWritable {} := fun empty => by cases empty
  exact unset.foldl_set listed.setting_ne

theorem Grammar.IsDeclaration.isWritable {tokens : List Token} {stated : Declaration}
    (declared : IsDeclaration tokens stated) : stated.IsWritable := by
  cases declared with
  | group => trivial
  | plain states => exact states.isWritable
  | braced states => exact states.isWritable

/-- Each rule of a stylesheet has a phrase of its own among the tokens. -/
theorem Grammar.IsSheet.exists_rule {tokens : List Token} {rules : List Rule}
    (sheet : IsSheet tokens rules) :
    ∀ rule ∈ rules, ∃ part, IsRule part rule ∧ ∀ token ∈ part, token ∈ tokens := by
  induction sheet with
  | nil => exact fun rule member => absurd member List.not_mem_nil
  | cons opening more ih =>
    intro rule member
    rcases List.mem_cons.mp member with rfl | later
    · exact ⟨_, opening, fun _ among => List.mem_append_left _ among⟩
    · obtain ⟨part, phrase, within⟩ := ih rule later
      exact ⟨part, phrase, fun token among => List.mem_append_right _ (within token among)⟩

/-- The kinds of a rule are among the words of its phrase. -/
theorem Grammar.IsRule.mem_tokens {tokens : List Token} {rule : Rule}
    (phrase : IsRule tokens rule) :
    ∀ chain ∈ rule.selectors, ∀ atom ∈ chain.atoms, .identifier atom ∈ tokens := by
  obtain ⟨selected, _⟩ := phrase
  intro chain listed atom inChain
  exact List.mem_append_left _ (selected.mem_tokens chain listed atom inChain)

theorem Grammar.IsRule.isWritable {tokens : List Token} {rule : Rule}
    (phrase : IsRule tokens rule) : rule.declaration.IsWritable := by
  obtain ⟨_, declared⟩ := phrase
  exact declared.isWritable

theorem Grammar.IsSheet.isWritable {tokens : List Token} {rules : List Rule}
    (sheet : IsSheet tokens rules)
    (words : ∀ word, .identifier word ∈ tokens → Scan.isIdentifier word.toList = true) :
    ∀ rule ∈ rules, rule.IsWritable := by
  intro rule member
  obtain ⟨part, phrase, within⟩ := sheet.exists_rule rule member
  refine ⟨fun chain listed atom inChain => words atom ?_, phrase.isWritable⟩
  exact within _ (phrase.mem_tokens chain listed atom inChain)

/-- **Whatever a source derives can be written.** -/
theorem Stylesheet.Derives.isWritable {source : List Char} {sheet : Stylesheet}
    (derived : Derives source sheet) : sheet.IsWritable := by
  obtain ⟨tokens, spelled, phrase⟩ := derived
  exact phrase.isWritable fun _ member => spelled.isIdentifier member

/-! ## Reading and writing -/

namespace Stylesheet

/-- The canonical text of what a source states. -/
def format (source : String) : Except ParseError String :=
  (ofString source).map render

theorem isWritable_of_ofString {source : String} {sheet : Stylesheet}
    (read : ofString source = .ok sheet) : sheet.IsWritable :=
  (ofCharacters_eq_ok_iff.mp read).isWritable

/-- **A stylesheet is read back from its canonical text exactly if it is writable.** -/
theorem ofString_render_eq_ok_iff {sheet : Stylesheet} :
    ofString sheet.render = .ok sheet ↔ sheet.IsWritable := by
  constructor
  · exact isWritable_of_ofString
  · intro writable
    exact ofCharacters_eq_ok_iff.mpr (derives_render writable)

theorem exists_sheet_of_format {source text : String} (formatted : format source = .ok text) :
    ∃ sheet, ofString source = .ok sheet ∧ text = sheet.render := by
  unfold format at formatted
  cases read : ofString source with
  | error fault =>
    rw [read] at formatted
    cases formatted
  | ok sheet =>
    rw [read] at formatted
    cases formatted
    exact ⟨sheet, rfl, rfl⟩

/-- Writing what was read is a fixed point after one pass. -/
theorem format_format {source text : String} (formatted : format source = .ok text) :
    format text = .ok text := by
  obtain ⟨sheet, read, rfl⟩ := exists_sheet_of_format formatted
  rw [format, ofString_render_eq_ok_iff.mpr (isWritable_of_ofString read)]
  rfl

/-- Writable stylesheets with the same canonical text are the same. -/
theorem render_injective {left right : Stylesheet} (first : left.IsWritable)
    (second : right.IsWritable) (same : left.render = right.render) : left = right := by
  have read := ofString_render_eq_ok_iff.mpr first
  rw [same, ofString_render_eq_ok_iff.mpr second] at read
  exact (Except.ok.inj read).symm

/-- **Canonical texts and stylesheets.**  A stylesheet is read back from its canonical
text exactly if it is writable, and everything that is read from a source is writable.
So the canonical text of what a source states is a fixed point, and it tells apart
whatever two sources state. -/
theorem canonical_text_round_trip :
    (∀ sheet : Stylesheet, ofString sheet.render = .ok sheet ↔ sheet.IsWritable) ∧
    (∀ (source : String) (sheet : Stylesheet),
      ofString source = .ok sheet → sheet.IsWritable) ∧
    (∀ source text : String, format source = .ok text → format text = .ok text) ∧
    (∀ (first second : String) (left right : Stylesheet),
      ofString first = .ok left → ofString second = .ok right →
        (left.render = right.render ↔ left = right)) := by
  refine ⟨fun _ => ofString_render_eq_ok_iff, fun _ _ => isWritable_of_ofString,
    fun _ _ => format_format, ?_⟩
  intro first second left right readLeft readRight
  constructor
  · exact render_injective (isWritable_of_ofString readLeft) (isWritable_of_ofString readRight)
  · exact congrArg render

/-- A source that is not in canonical form, its canonical text, and an empty source. -/
theorem canonical_text_of_child_rule :
    ∃ sheet, ofString "a>b:comment; # done" = .ok sheet ∧ sheet.IsWritable ∧
      sheet.render = "a > b: comment;\n" ∧ ofString "a > b: comment;\n" = .ok sheet ∧
      format "a > b: comment;\n" = .ok "a > b: comment;\n" ∧
      ofString "" = .ok ⟨[]⟩ ∧ (sheet.render = render ⟨[]⟩ ↔ sheet = ⟨[]⟩) := by
  obtain ⟨readBack, writable, fixed, distinct⟩ := canonical_text_round_trip
  let rule : Rule := ⟨[⟨"a", [(.child, "b")]⟩], .highlight .comment, by decide⟩
  have phrase := IsSheet.cons (@IsRule.intro _ _ rule (.single (.intro (.cons .child .nil)))
    (.group .comment)) .nil
  have word (text : String) (named : Scan.isIdentifier text.toList = true) :=
    Writes.identifier named
  have kinds : Writes [.identifier "a", .mark .greater, .identifier "b"] "a>b".toList :=
    (word "a" (by decide)).append_mark .greater (word "b" (by decide))
  have written := kinds.append_mark .colon
    ((word "comment" (by decide)).append_mark .semicolon .nil)
  have ending : Ending " # done".toList :=
    @Ending.comment [' '] " done".toList (.space (by decide) .nil) (by decide)
  have spelled := written (.ending ending) (.cons (by decide) "# done".toList)
  have read : ofString "a>b:comment; # done" = .ok ⟨[rule]⟩ :=
    ofCharacters_eq_ok_iff.mpr ⟨_, spelled, phrase⟩
  have text : Stylesheet.render ⟨[rule]⟩ = "a > b: comment;\n" := by decide
  have again := (readBack ⟨[rule]⟩).mpr (writable _ _ read)
  rw [text] at again
  have formatted : format "a>b:comment; # done" = .ok "a > b: comment;\n" := by
    rw [format, read, ← text]
    rfl
  have empty : ofString "" = .ok ⟨[]⟩ :=
    ofCharacters_eq_ok_iff.mpr ⟨[], .ending (.gap .nil), .nil⟩
  exact ⟨⟨[rule]⟩, read, writable _ _ read, text, again, fixed _ _ formatted, empty,
    distinct _ _ _ _ read empty⟩

end Stylesheet

end TreeStyle
