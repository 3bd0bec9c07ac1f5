import TreeStyle.Proofs.Grammar.Acceptance
import TreeStyle.Proofs.Source.Literals

/-!
# The reader recognises the grammar

A source is read to a stylesheet exactly if it derives the stylesheet.  Each loop of
the reader takes one kind of phrase off the front of the accepted tokens, and each
phrase in front of accepted tokens is accepted, so both halves follow the phrases.

Main statement: `Stylesheet.ofString_eq_ok_iff_derives`.
-/

namespace TreeStyle

set_option autoImplicit false

open Stage Grammar

/-! ## Sets and styles along a phrase -/

/-- A setting specifies its own field and leaves the others as they were. -/
theorem PartialStyle.specifies_set (style : PartialStyle) (setting : Setting)
    (property : Property) :
    (style.set setting).specifies property = false ↔
      style.specifies property = false ∧ property ≠ setting.property := by
  cases setting <;> cases property <;> simp [set, specifies, Setting.property]

theorem Chain.extend_nil (chain : Chain) : chain.extend [] = chain := by
  simp [extend]

theorem Chain.extend_extend (chain : Chain) (first second : List (Combinator × String)) :
    (chain.extend first).extend second = chain.extend (first ++ second) := by
  simp [extend]

/-! ## Selectors -/

/-- What stands between two kinds is a mark with a combinator, or nothing. -/
theorem Grammar.isJoint_of_combinator? {mark : Mark} {combinator : Combinator}
    (joined : mark.combinator? = some combinator) : IsJoint [.mark mark] combinator := by
  cases mark <;> cases joined
  · exact .twin
  · exact .sibling
  · exact .child

/-- After a kind, the accepted tokens start with the rest of a selector. -/
theorem Stage.Accepts.exists_links {finished : List Chain} {chain : Chain}
    {tokens : List Token} {rules : List Rule}
    (accepted : Accepts (afterKind finished chain) tokens rules) :
    ∃ front links rest, IsLinks front links ∧
      ((tokens = front ++ .mark .comma :: rest ∧
          Accepts (selectorStart (withChain finished (chain.extend links))) rest rules) ∨
        (tokens = front ++ .mark .colon :: rest ∧
          Accepts (declaration (withChain finished (chain.extend links))) rest rules)) := by
  induction size : tokens.length using Nat.strongRecOn generalizing chain tokens with
  | ind size ih =>
    cases accepted with
    | close taken => cases taken
    | @proceed _ _ _ tokens _ taken more =>
      rw [List.length_cons] at size
      cases taken with
      | descendant _ _ kind =>
        obtain ⟨front, links, rest, linked, split⟩ := ih tokens.length (by omega) more rfl
        refine ⟨.identifier kind :: front, (.descendant, kind) :: links, rest,
          .cons .descendant linked, ?_⟩
        rw [Chain.extend_extend] at split
        rcases split with ⟨rfl, further⟩ | ⟨rfl, further⟩
        · exact .inl ⟨rfl, further⟩
        · exact .inr ⟨rfl, further⟩
      | @joint _ _ mark combinator joined =>
        cases more with
        | close taken => cases taken
        | @proceed _ _ _ tokens _ taken more =>
          cases taken with
          | linked _ _ _ kind =>
            rw [List.length_cons] at size
            obtain ⟨front, links, rest, linked, split⟩ := ih tokens.length (by omega) more rfl
            refine ⟨[.mark mark] ++ .identifier kind :: front, (combinator, kind) :: links, rest,
              .cons (isJoint_of_combinator? joined) linked, ?_⟩
            rw [Chain.extend_extend] at split
            rcases split with ⟨rfl, further⟩ | ⟨rfl, further⟩
            · exact .inl ⟨rfl, further⟩
            · exact .inr ⟨rfl, further⟩
      | selectorComma =>
        refine ⟨[], [], tokens, .nil, .inl ⟨rfl, ?_⟩⟩
        rw [Chain.extend_nil]
        exact more
      | selectorColon =>
        refine ⟨[], [], tokens, .nil, .inr ⟨rfl, ?_⟩⟩
        rw [Chain.extend_nil]
        exact more

/-- The links of a selector are accepted after its first kind. -/
theorem Grammar.IsLinks.accepts {front rest : List Token} {links : List (Combinator × String)}
    (linked : IsLinks front links) {finished : List Chain} {chain : Chain} {rules : List Rule}
    (accepted : Accepts (afterKind finished (chain.extend links)) rest rules) :
    Accepts (afterKind finished chain) (front ++ rest) rules := by
  induction linked generalizing chain with
  | nil =>
    rw [Chain.extend_nil] at accepted
    exact accepted
  | @cons joint tokens combinator kind links joined _ ih =>
    rw [← List.singleton_append, ← Chain.extend_extend] at accepted
    have further := ih accepted
    cases joined with
    | twin | sibling | child =>
      exact .proceed (.joint finished chain rfl) (.proceed (.linked ..) further)
    | descendant => exact .proceed (.descendant ..) further

/-- From the first kind of a selector on, the accepted tokens start with a list of
selectors and a colon. -/
theorem Stage.Accepts.exists_selectorList {finished : List Chain} {kind : String}
    {tokens : List Token} {rules : List Rule}
    (accepted : Accepts (afterKind finished ⟨kind, []⟩) tokens rules) :
    ∃ front chains rest, IsSelectorList front chains ∧
      .identifier kind :: tokens = front ++ .mark .colon :: rest ∧
      ∃ selectors : Selectors, selectors.val = finished ++ chains ∧
        Accepts (declaration selectors) rest rules := by
  induction size : tokens.length using Nat.strongRecOn generalizing finished kind tokens with
  | ind size ih =>
    obtain ⟨front, links, rest, linked, split⟩ := accepted.exists_links
    have selector : IsSelector (.identifier kind :: front) ⟨kind, links⟩ := .intro linked
    rcases split with ⟨rfl, further⟩ | ⟨rfl, further⟩
    · cases further with
      | close taken => cases taken
      | @proceed _ _ _ tokens _ taken more =>
        cases taken with
        | nextSelector _ next =>
          simp only [List.length_append, List.length_cons] at size
          obtain ⟨others, chains, rest, listed, split, selectors, joined, declared⟩ :=
            ih tokens.length (by omega) more rfl
          refine ⟨.identifier kind :: front ++ .mark .comma :: others, _, rest,
            .cons selector listed, ?_, selectors, ?_, declared⟩
          · rw [List.append_assoc, List.cons_append, List.cons_append, split]
          · rw [joined]
            simp [withChain, Chain.extend]
    · exact ⟨.identifier kind :: front, _, rest, .single selector, rfl, _, rfl, further⟩

/-- A list of selectors is accepted in front of a colon. -/
theorem Grammar.IsSelectorList.accepts {front rest : List Token} {chains : List Chain}
    (listed : IsSelectorList front chains) {finished : List Chain} {selectors : Selectors}
    (joined : selectors.val = finished ++ chains) {rules : List Rule}
    (accepted : Accepts (declaration selectors) rest rules) :
    ∃ kind others, front = .identifier kind :: others ∧
      Accepts (afterKind finished ⟨kind, []⟩) (others ++ .mark .colon :: rest) rules := by
  induction listed generalizing finished with
  | @single tokens chain only =>
    obtain ⟨linked⟩ := only
    refine ⟨_, _, rfl, linked.accepts ?_⟩
    have same : selectors = withChain finished (Chain.extend ⟨_, []⟩ _) := Subtype.ext joined
    rw [same] at accepted
    exact .proceed (.selectorColon ..) accepted
  | @cons first others chain chains selector _ ih =>
    cases selector with
    | @intro tokens first links linked =>
      rw [← List.singleton_append, ← List.append_assoc] at joined
      obtain ⟨kind, more, rfl, further⟩ := ih joined
      refine ⟨first, tokens ++ .mark .comma :: .identifier kind :: more, rfl, ?_⟩
      rw [List.append_assoc]
      exact linked.accepts (.proceed (.selectorComma ..) (.proceed (.nextSelector _ kind) further))

/-! ## Attributes -/

/-- Where an attribute is due, the accepted tokens start with a list of new names. -/
theorem Stage.Accepts.exists_nameList {selectors : Selectors} {braced : Bool}
    {style : PartialStyle} {attrs : AttributeSet} {tokens : List Token} {rules : List Rule}
    (accepted : Accepts (attributeName selectors braced style attrs) tokens rules) :
    ∃ front flags rest, IsNameList front flags ∧ flags.Nodup ∧ (∀ flag ∈ flags, flag ∉ attrs) ∧
      tokens = front ++ rest ∧ rest.head? ≠ some (.mark .pipe) ∧
      Accepts (afterValue selectors braced style (.attr (attrs ∪ .ofList flags))) rest rules := by
  induction size : tokens.length using Nat.strongRecOn generalizing attrs tokens with
  | ind size ih =>
    cases accepted with
    | close taken => cases taken
    | @proceed _ _ _ tokens _ taken more =>
      cases taken with
      | @name _ _ _ _ word flag named fresh =>
        by_cases bar : tokens.head? = some (.mark .pipe)
        · obtain ⟨others, rfl⟩ := List.head?_eq_some_iff.mp bar
          cases more with
          | close taken => cases taken
          | proceed taken more =>
            cases taken with
            | pipe =>
              simp only [List.length_cons] at size
              obtain ⟨front, flags, rest, listed, distinct, new, rfl, stop, further⟩ :=
                ih others.length (by omega) more rfl
              refine ⟨[.identifier word] ++ .mark .pipe :: front, flag :: flags, rest,
                .cons (.intro named) listed, ?_, ?_, rfl, stop, ?_⟩
              · refine List.nodup_cons.mpr ⟨fun member => ?_, distinct⟩
                exact new flag member (AttributeSet.mem_union.mpr
                  (.inr (AttributeSet.mem_singleton.mpr rfl)))
              · intro other member
                rcases List.mem_cons.mp member with rfl | member
                · exact fresh
                · exact fun old => new other member (AttributeSet.mem_union.mpr (.inl old))
              · rw [← AttributeSet.union_ofList_cons]
                exact further
        · rw [← AttributeSet.ofList_singleton] at more
          refine ⟨[.identifier word], [flag], tokens, .single (.intro named), by simp, ?_, rfl,
            bar, more⟩
          intro other member
          rw [List.mem_singleton.mp member]
          exact fresh

/-- A list of new names is accepted where an attribute is due. -/
theorem Grammar.IsNameList.accepts {front rest : List Token} {flags : List Attribute}
    (listed : IsNameList front flags) (distinct : flags.Nodup) {selectors : Selectors}
    {braced : Bool} {style : PartialStyle} {attrs : AttributeSet}
    (new : ∀ flag ∈ flags, flag ∉ attrs) {rules : List Rule}
    (accepted :
      Accepts (afterValue selectors braced style (.attr (attrs ∪ .ofList flags))) rest rules) :
    Accepts (attributeName selectors braced style attrs) (front ++ rest) rules := by
  induction listed generalizing attrs with
  | single only =>
    obtain ⟨named⟩ := only
    rw [AttributeSet.ofList_singleton] at accepted
    exact .proceed (.name _ _ _ named (new _ List.mem_cons_self)) accepted
  | @cons _ _ flag flags item _ ih =>
    obtain ⟨named⟩ := item
    have fresh := new flag List.mem_cons_self
    rw [List.nodup_cons] at distinct
    have later : ∀ other ∈ flags, other ∉ attrs ∪ AttributeSet.singleton flag := by
      intro other member old
      rcases AttributeSet.mem_union.mp old with old | same
      · exact new other (List.mem_cons_of_mem _ member) old
      · rw [AttributeSet.mem_singleton.mp same] at member
        exact distinct.1 member
    rw [← AttributeSet.union_ofList_cons] at accepted
    exact .proceed (.name _ _ _ named fresh)
      (.proceed (.pipe ..) (ih distinct.2 later accepted))

/-! ## Properties -/

/-- From a key on, the accepted tokens start with a property of its field. -/
theorem Stage.Accepts.exists_property {selectors : Selectors} {braced : Bool}
    {style : PartialStyle} {property : Property} {word : String} (keyed : property.HasKey word)
    {tokens : List Token} {rules : List Rule}
    (accepted : Accepts (afterKey selectors braced style property word) tokens rules) :
    ∃ front setting rest, IsProperty front setting ∧ setting.property = property ∧
      .identifier word :: tokens = front ++ rest ∧
      rest.head? ≠ some (.mark .pipe) ∧
      Accepts (afterValue selectors braced style setting) rest rules := by
  have noBar : ∀ {setting : Setting} {rest : List Token}, setting.property ≠ .attr →
      Accepts (afterValue selectors braced style setting) rest rules →
        rest.head? ≠ some (.mark .pipe) := by
    intro setting rest color further bar
    obtain ⟨others, rfl⟩ := List.head?_eq_some_iff.mp bar
    cases further with
    | close taken => cases taken
    | proceed taken _ =>
      cases taken with
      | pipe => exact color rfl
  cases accepted with
  | close taken => cases taken
  | proceed taken more =>
    cases taken with
    | keyColon =>
      cases property with
      | fg =>
        cases more with
        | close taken => cases taken
        | proceed taken more =>
          cases taken with
          | color _ _ _ _ stated =>
            exact ⟨_, _, _, .fg keyed stated, rfl, rfl, noBar (by simp [Setting.property]) more,
              more⟩
      | bg =>
        cases more with
        | close taken => cases taken
        | proceed taken more =>
          cases taken with
          | color _ _ _ _ stated =>
            exact ⟨_, _, _, .bg keyed stated, rfl, rfl, noBar (by simp [Setting.property]) more,
              more⟩
      | attr =>
        obtain ⟨front, flags, rest, listed, distinct, _, rfl, stop, further⟩ :=
          more.exists_nameList
        rw [AttributeSet.empty_union] at further
        exact ⟨.identifier word :: .mark .colon :: front, _, rest, .attr keyed listed distinct,
          rfl, rfl, stop, further⟩

/-- A property of an unset field is accepted where a key is due. -/
theorem Grammar.IsProperty.accepts {front rest : List Token} {setting : Setting}
    (stated : IsProperty front setting) {selectors : Selectors} {braced : Bool}
    {style : PartialStyle} {rules : List Rule}
    (accepted : Accepts (afterValue selectors braced style setting) rest rules) :
    ∃ word others, front = .identifier word :: others ∧ setting.property.HasKey word ∧
      Accepts (afterKey selectors braced style setting.property word) (others ++ rest) rules := by
  cases stated with
  | fg keyed color =>
    exact ⟨_, _, rfl, keyed, .proceed (.keyColon ..) (.proceed (.color _ _ _ _ color) accepted)⟩
  | bg keyed color =>
    exact ⟨_, _, rfl, keyed, .proceed (.keyColon ..) (.proceed (.color _ _ _ _ color) accepted)⟩
  | attr keyed names distinct =>
    rw [← AttributeSet.empty_union (.ofList _)] at accepted
    refine ⟨_, _, rfl, keyed, .proceed (.keyColon ..) (names.accepts distinct ?_ accepted)⟩
    exact fun flag _ => AttributeSet.not_mem_empty flag

/-- What follows the properties of a rule. -/
def Grammar.closing (braced : Bool) : List Token :=
  if braced then [.mark .rightBrace, .mark .semicolon] else [.mark .semicolon]

/-- After a value, the rule is closed or another property follows. -/
theorem Stage.Accepts.close_or_comma {selectors : Selectors} {braced : Bool}
    {style : PartialStyle} {setting : Setting} {tokens : List Token} {rules : List Rule}
    (accepted : Accepts (afterValue selectors braced style setting) tokens rules)
    (stop : tokens.head? ≠ some (.mark .pipe)) :
    (∃ rest others, tokens = closing braced ++ rest ∧
        rules = ruleOf selectors (declarationOf style setting) :: others ∧
        Accepts between rest others) ∨
      ∃ property word rest, property.HasKey word ∧
        (style.set setting).specifies property = false ∧
        tokens = .mark .comma :: .identifier word :: rest ∧
        Accepts (afterKey selectors braced (style.set setting) property word) rest rules := by
  cases accepted with
  | close taken more =>
    cases taken with
    | plainEnd => exact .inl ⟨_, _, rfl, rfl, more⟩
  | proceed taken more =>
    cases taken with
    | pipe => exact absurd rfl stop
    | rightBrace =>
      cases more with
      | proceed taken => cases taken
      | close taken more =>
        cases taken with
        | ruleEnd => exact .inl ⟨_, _, rfl, rfl, more⟩
    | propertyComma =>
      cases more with
      | close taken => cases taken
      | proceed taken more =>
        cases taken with
        | key _ _ keyed unset => exact .inr ⟨_, _, _, keyed, unset, rfl, more⟩

/-- From the key of an unset field on, the accepted tokens start with a list of
properties of unset fields, which closes its rule. -/
theorem Stage.Accepts.exists_propertyList {selectors : Selectors} {braced : Bool}
    {style : PartialStyle} {property : Property} {word : String} (keyed : property.HasKey word)
    (unset : style.specifies property = false) {tokens : List Token} {rules : List Rule}
    (accepted : Accepts (afterKey selectors braced style property word) tokens rules) :
    ∃ front settings rest stated others, IsPropertyList front settings ∧
      (settings.map Setting.property).Nodup ∧
      (∀ setting ∈ settings, style.specifies setting.property = false) ∧
      .identifier word :: tokens = front ++ (closing braced ++ rest) ∧
      rules = ruleOf selectors (.properties stated) :: others ∧
      stated.val = settings.foldl PartialStyle.set style ∧ Accepts between rest others := by
  induction size : tokens.length using Nat.strongRecOn generalizing style property word tokens with
  | ind size ih =>
    obtain ⟨front, setting, after, only, rfl, split, stop, further⟩ :=
      accepted.exists_property keyed
    rcases further.close_or_comma stop with
      ⟨rest, others, rfl, rfl, more⟩ | ⟨next, key, tail, nextKeyed, nextUnset, rfl, more⟩
    · refine ⟨front, [setting], rest, _, others, .single only, by simp, ?_, split, rfl, rfl, more⟩
      intro other member
      rw [List.mem_singleton.mp member]
      exact unset
    · have lengths := congrArg List.length split
      simp only [List.length_cons, List.length_append] at lengths
      obtain ⟨others, settings, rest, stated, rules, listed, distinct, unsetLater, joined, rfl,
        whole, more⟩ := ih tail.length (by omega) nextKeyed nextUnset more rfl
      refine ⟨front ++ .mark .comma :: others, setting :: settings, rest, stated, rules,
        .cons only listed, ?_, ?_, ?_, rfl, whole, more⟩
      · refine List.nodup_cons.mpr ⟨fun member => ?_, distinct⟩
        obtain ⟨other, listed, same⟩ := List.mem_map.mp member
        have changed := (PartialStyle.specifies_set style setting _).mp (unsetLater other listed)
        exact changed.2 same
      · intro other member
        rcases List.mem_cons.mp member with rfl | member
        · exact unset
        · exact ((PartialStyle.specifies_set style setting _).mp (unsetLater other member)).1
      · rw [split, joined, List.append_assoc, List.cons_append]

/-- A list of properties of unset fields is accepted up to the end of its rule. -/
theorem Grammar.IsPropertyList.accepts {front rest : List Token} {settings : List Setting}
    (listed : IsPropertyList front settings) (distinct : (settings.map Setting.property).Nodup)
    {selectors : Selectors} {braced : Bool} {style : PartialStyle} {stated : SpecifiedStyle}
    (unset : ∀ setting ∈ settings, style.specifies setting.property = false)
    (whole : stated.val = settings.foldl PartialStyle.set style) {rules : List Rule}
    (accepted : Accepts between rest rules) :
    ∃ property word others, front = .identifier word :: others ∧ property.HasKey word ∧
      style.specifies property = false ∧
      Accepts (afterKey selectors braced style property word) (others ++ (closing braced ++ rest))
        (ruleOf selectors (.properties stated) :: rules) := by
  induction listed generalizing style with
  | @single tokens setting only =>
    have same : Declaration.properties stated = declarationOf style setting :=
      congrArg Declaration.properties (Subtype.ext whole)
    have closed : Accepts (afterValue selectors braced style setting) (closing braced ++ rest)
        (ruleOf selectors (.properties stated) :: rules) := by
      rw [same]
      cases braced with
      | false => exact .close (.plainEnd ..) accepted
      | true => exact .proceed (.rightBrace ..) (.close (.ruleEnd ..) accepted)
    obtain ⟨word, others, rfl, keyed, further⟩ := only.accepts closed
    exact ⟨_, word, others, rfl, keyed, unset setting List.mem_cons_self, further⟩
  | @cons first later setting settings only _ ih =>
    rw [List.map_cons, List.nodup_cons] at distinct
    have unsetLater : ∀ other ∈ settings, (style.set setting).specifies other.property = false := by
      intro other member
      refine (PartialStyle.specifies_set style setting _).mpr
        ⟨unset other (List.mem_cons_of_mem _ member), fun same => distinct.1 ?_⟩
      rw [← same]
      exact List.mem_map_of_mem member
    obtain ⟨next, key, tail, rfl, nextKeyed, nextUnset, more⟩ := ih distinct.2 unsetLater whole
    obtain ⟨word, others, rfl, keyed, further⟩ :=
      only.accepts (.proceed (.propertyComma ..) (.proceed (.key _ _ nextKeyed nextUnset) more))
    refine ⟨_, word, others ++ .mark .comma :: .identifier key :: tail, rfl, keyed,
      unset setting List.mem_cons_self, ?_⟩
    rw [List.append_assoc]
    exact further

/-! ## Declarations -/

/-- At a declaration, the accepted tokens start with one that closes its rule. -/
theorem Stage.Accepts.exists_declaration {selectors : Selectors} {tokens : List Token}
    {rules : List Rule} (accepted : Accepts (declaration selectors) tokens rules) :
    ∃ front stated rest others, IsDeclaration front stated ∧
      tokens = front ++ .mark .semicolon :: rest ∧ rules = ruleOf selectors stated :: others ∧
      Accepts between rest others := by
  cases accepted with
  | close taken => cases taken
  | proceed taken more =>
    cases taken with
    | leftBrace =>
      cases more with
      | close taken => cases taken
      | proceed taken more =>
        cases taken with
        | key _ _ keyed unset =>
          obtain ⟨front, settings, rest, stated, others, listed, distinct, _, split, rfl, whole,
            more⟩ := more.exists_propertyList keyed unset
          refine ⟨_, _, rest, others, .braced ⟨settings, listed, distinct, whole.symm⟩, ?_, rfl,
            more⟩
          rw [split]
          simp [closing]
    | firstKey _ keyed =>
      have unset : ∀ property, PartialStyle.specifies {} property = false := by
        intro property
        cases property <;> rfl
      obtain ⟨front, settings, rest, stated, others, listed, distinct, _, split, rfl, whole,
        more⟩ := more.exists_propertyList keyed (unset _)
      exact ⟨front, _, rest, others, .plain ⟨settings, listed, distinct, whole.symm⟩, split, rfl,
        more⟩
    | group _ group =>
      cases more with
      | proceed taken => cases taken
      | close taken more =>
        cases taken with
        | ruleEnd => exact ⟨_, _, _, _, .group group, rfl, rfl, more⟩

/-- A declaration is accepted up to the end of its rule. -/
theorem Grammar.IsDeclaration.accepts {front rest : List Token} {stated : Declaration}
    (declared : IsDeclaration front stated) {selectors : Selectors} {rules : List Rule}
    (accepted : Accepts between rest rules) :
    Accepts (declaration selectors) (front ++ .mark .semicolon :: rest)
      (ruleOf selectors stated :: rules) := by
  have unset : ∀ property, PartialStyle.specifies {} property = false := by
    intro property
    cases property <;> rfl
  cases declared with
  | group group => exact .proceed (.group selectors group) (.close (.ruleEnd ..) accepted)
  | plain states =>
    obtain ⟨settings, listed, distinct, whole⟩ := states
    obtain ⟨property, word, others, rfl, keyed, _, further⟩ :=
      @IsPropertyList.accepts _ rest settings listed distinct selectors false {} _
        (fun setting _ => unset setting.property) whole.symm rules accepted
    exact .proceed (.firstKey selectors keyed) further
  | @braced tokens style states =>
    obtain ⟨settings, listed, distinct, whole⟩ := states
    obtain ⟨property, word, others, rfl, keyed, free, further⟩ :=
      @IsPropertyList.accepts _ rest settings listed distinct selectors true {} _
        (fun setting _ => unset setting.property) whole.symm rules accepted
    have opened := Accepts.proceed (.leftBrace selectors) (.proceed (.key _ _ keyed free) further)
    simpa [closing] using opened

/-! ## Rules and stylesheets -/

/-- Between two rules, the accepted tokens start with a rule, if there are any. -/
theorem Stage.Accepts.exists_rule {token : Token} {tokens : List Token} {rules : List Rule}
    (accepted : Accepts between (token :: tokens) rules) :
    ∃ front rule rest others, IsRule front rule ∧ token :: tokens = front ++ rest ∧
      rest.length ≤ tokens.length ∧ rules = rule :: others ∧ Accepts between rest others := by
  cases accepted with
  | close taken => cases taken
  | proceed taken more =>
    cases taken with
    | opening kind =>
      obtain ⟨front, chains, after, listed, split, selectors, joined, declared⟩ :=
        more.exists_selectorList
      obtain ⟨middle, stated, rest, others, declaration, rfl, rfl, remaining⟩ :=
        declared.exists_declaration
      rw [List.nil_append] at joined
      subst joined
      refine ⟨front ++ .mark .colon :: (middle ++ [.mark .semicolon]), ruleOf selectors stated,
        rest, others, .intro listed declaration, ?_, ?_, rfl, remaining⟩
      · rw [split]
        simp
      · have lengths := congrArg List.length split
        simp only [List.length_cons, List.length_append] at lengths
        omega

/-- A rule is accepted in front of a stylesheet. -/
theorem Grammar.IsRule.accepts {front rest : List Token} {rule : Rule}
    (opening : IsRule front rule) {rules : List Rule} (accepted : Accepts between rest rules) :
    Accepts between (front ++ rest) (rule :: rules) := by
  obtain ⟨selected, declared⟩ := opening
  have closed : Accepts (declaration ⟨rule.selectors, rule.selectors_ne_nil⟩) _ (rule :: rules) :=
    declared.accepts accepted
  obtain ⟨kind, others, rfl, further⟩ := selected.accepts (List.nil_append _).symm closed
  have whole := Accepts.proceed (.opening kind) further
  simpa using whole

/-- Accepted tokens are the phrase of a stylesheet. -/
theorem Stage.Accepts.isSheet {tokens : List Token} {rules : List Rule}
    (accepted : Accepts between tokens rules) : IsSheet tokens rules := by
  induction size : tokens.length using Nat.strongRecOn generalizing tokens rules with
  | ind size ih =>
    cases tokens with
    | nil =>
      cases accepted
      exact .nil
    | cons token tokens =>
      obtain ⟨front, rule, rest, others, opening, split, shorter, rfl, more⟩ :=
        accepted.exists_rule
      rw [List.length_cons] at size
      rw [split]
      exact .cons opening (ih rest.length (by omega) more rfl)

/-- The phrase of a stylesheet is accepted. -/
theorem Grammar.IsSheet.accepts {tokens : List Token} {rules : List Rule}
    (sheet : IsSheet tokens rules) : Accepts between tokens rules := by
  induction sheet with
  | nil => exact .done
  | cons opening _ ih => exact opening.accepts ih

/-- Characters are read to a stylesheet exactly if they derive it. -/
theorem Stylesheet.ofCharacters_eq_ok_iff {source : List Char} {sheet : Stylesheet} :
    Stylesheet.ofCharacters source = .ok sheet ↔ Derives source sheet := by
  have rules : Stylesheet.ofCharacters source = .ok sheet ↔
      readRules .between [] source = .ok sheet.rules := by
    unfold Stylesheet.ofCharacters
    cases readRules .between [] source with
    | error fault => simp
    | ok read =>
      obtain ⟨stated⟩ := sheet
      simp
  rw [rules, readRules_eq_ok_iff]
  constructor
  · rintro ⟨tokens, spelled, accepted⟩
    exact ⟨tokens, spelled, accepted.isSheet⟩
  · rintro ⟨tokens, spelled, phrase⟩
    exact ⟨tokens, spelled, phrase.accepts⟩

/-- **A source is read to a stylesheet exactly if it derives the stylesheet.**  So the
sources that are read are those that have a derivation, and what is read from a source
is what its derivations mean. -/
theorem Stylesheet.ofString_eq_ok_iff_derives (source : String) (sheet : Stylesheet) :
    Stylesheet.ofString source = .ok sheet ↔ Derives source.toList sheet :=
  ofCharacters_eq_ok_iff

end TreeStyle
