import TreeStyle.Proofs.Grammar.Lookahead
import TreeStyle.Proofs.Grammar.Recognition
import TreeStyle.Proofs.Grammar.Remainders
import TreeStyle.Proofs.Source.Continuation
import TreeStyle.Stylesheet.Source

/-!
# Reading by descent is reading by stages

Every colour comes behind a colon that has just been taken, so nothing is pending where a
colour is asked for (`Lexer.readSetting_follows`).  And the parts that constructors are
given are complete: a selector has one combinator fewer than kinds, properties specify
something, and a rule has a selector.  So reading by descent is never interrupted by the
lexer or by a constructor.

Main statements: `Lexer.readSheet_eq` and `Stylesheet.ofSource_eq`.
-/

namespace TreeStyle

set_option autoImplicit false

/-! ## Constructors -/

theorem Color.construct_eq_ok (color : Color) : color.construct = .ok color := by
  have entry (number : Fin 256) : byte? (number.val : Int) = some number :=
    byte?_eq_some_iff.mpr rfl
  cases color with
  | rgb red green blue => simp only [construct, ofChannels, entry]
  | ansi index => simp only [construct, ofIndex, entry]
  | named name => rfl

theorem Declaration.ofStyle?_set (style : PartialStyle) (setting : Setting) :
    ofStyle? (style.set setting) = some (Stage.declarationOf style setting) :=
  dif_pos (style.isEmpty_set setting)

theorem Rule.ofSelectors?_selectors (selectors : Selectors) (declaration : Declaration) :
    ofSelectors? selectors.val declaration = some (Stage.ruleOf selectors declaration) :=
  dif_pos selectors.property

namespace Lexer

variable {source text : List Char} {lexer : Lexer}

/-! ### Values -/

section Values

variable {opened : List Char} {selectors : Selectors} {braced : Bool} {style : PartialStyle}

/-- Where no colour starts, a mark stands or no token at all. -/
theorem exists_mark_of_noColor {piece : Piece String} (colored : Scan.nextColor text = some piece)
    (empty : piece.value = "") {found : Piece Token}
    (scanned : Scan.nextToken piece.rest = .ok found) : ∃ mark, found.value = .mark mark := by
  obtain ⟨gap, character, rest, _, starts, _, left⟩ := Scan.exists_startsNoColor colored empty
  rw [left] at scanned
  unfold Scan.nextToken at scanned
  rw [Scan.skipTrivia_other starts.solid starts.plain] at scanned
  simp only [starts.noStart] at scanned
  split at scanned
  · cases scanned
    exact ⟨_, rfl⟩
  · cases scanned

/-- A colour is read where nothing is pending. -/
theorem readColor_follows (setting : Color → Setting) :
    Follows (readRules (.colorValue selectors braced style setting) opened text)
      (fun color after => ∃ remainder, after.StandsAt source remainder ∧
        readRules (.colorValue selectors braced style setting) opened text =
          readRules (.afterValue selectors braced style (setting color)) opened remainder)
      (readColor opened { source, rest := text }) := by
  unfold readColor
  split
  · next error after found =>
    unfold nextColor at found
    split at found
    · next pending => cases pending
    · split at found <;> cases found
  · next piece after found =>
    unfold nextColor at found
    dsimp only at found
    split at found
    · next none =>
      cases found
      have read : (Stage.colorValue selectors braced style setting).readToken text =
          .ok ⟨.endOfInput, [], []⟩ := by
        simp only [Stage.readToken, Stage.expectsColor, none, if_true]
      exact readRules_of_end read rfl
    · next colored scanned =>
      cases found
      have reads : (Stage.colorValue selectors braced style setting).readToken text =
          if colored.value = "" then Scan.nextToken colored.rest
          else .ok ⟨.color colored.value, colored.start, colored.rest⟩ := by
        simp only [Stage.readToken, Stage.expectsColor, scanned, if_true]
      rw [if_neg Token.noConfusion]
      by_cases empty : colored.value = ""
      · rw [if_pos empty] at reads
        rw [if_pos (show Token.text (.color colored.value) = "" from empty)]
        refine (look_follows .idle fun stray strays => ?_).bind ?_
        · exact readRules_of_stray (reads.trans strays)
        · rintro found _ _ ⟨looked, rfl⟩
          obtain ⟨mark, marked⟩ := exists_mark_of_noColor scanned empty looked
          have token := Token.ne_endOfInput_of_mark marked
          have read := @readRules_of_token _ opened _ _ (reads.trans looked) token
          rw [marked] at read
          change readRules _ opened text = _
          rw [read, marked]
          rfl
      · rw [if_neg empty] at reads
        rw [if_neg (show Token.text (.color colored.value) ≠ "" from empty)]
        have read := @readRules_of_token _ opened _ _ reads Token.noConfusion
        simp only [Stage.step, Stage.stepColor] at read
        dsimp only [Token.text]
        cases literal : Color.ofString colored.value with
        | error reason =>
          rw [literal] at read
          exact read
        | ok color =>
          rw [literal] at read
          simp only [Except.bind, color.construct_eq_ok]
          exact ⟨colored.rest, .idle, read⟩

/-- An identifier has no blanks around it. -/
theorem strip_of_identifier {piece : Piece Token} (scanned : Scan.nextToken text = .ok piece)
    {word : String} (named : piece.value = .identifier word) :
    Text.strip word.toList = word.toList := by
  unfold Scan.nextToken at scanned
  split at scanned
  · cases scanned
    cases named
  · next character rest _ =>
    split at scanned
    · cases scanned
      cases named
    · split at scanned
      · next starts =>
        cases scanned
        cases named
        rw [String.toList_ofList]
        refine Text.strip_of_not_blank fun other member => Text.isBlank_of_isWordCharacter ?_
        rcases List.mem_cons.mp member with rfl | member
        · exact Scan.isWordCharacter_of_isIdentifierStart starts
        · exact List.all_eq_true.mp List.all_takeWhile other member
      · cases scanned

/-- Names of attributes are read up to a token that is no bar. -/
theorem readAttributes_follows (lexer : Lexer) (text : List Char) (attrs : AttributeSet)
    (stands : lexer.StandsAt source text) :
    Follows (readRules (.attributeName selectors braced style attrs) opened text)
      (fun all after => ∃ remainder, after.StandsAt source remainder ∧
        (∀ piece, Scan.nextToken remainder = .ok piece → piece.value ≠ .mark .pipe) ∧
        readRules (.attributeName selectors braced style attrs) opened text =
          readRules (.afterValue selectors braced style (.attr all)) opened remainder)
      (lexer.readAttributes opened attrs) := by
  rw [readAttributes]
  refine (expect_follows_inside stands rfl Stage.noConfusion ?_).bind ?_
  · intro piece _ _ refused
    cases value : piece.value with
    | identifier word =>
      rw [value] at refused
      cases refused
    | _ => rfl
  · rintro ⟨word, start⟩ _ fewer ⟨piece, took⟩
    have named := identifier?_eq_some_iff.mp took.accepted
    have core := strip_of_identifier took.scanned named
    have read := readRules_of_nextToken
      (.attributeName selectors braced style attrs) opened rfl took.scanned took.token
    rw [named] at read
    simp only [Stage.step, Stage.stepAttribute, AttributeSet.insertName, core] at read
    obtain rfl : start = piece.start := took.start
    obtain rfl := took.after
    dsimp only
    split
    · next unknown =>
      simp only [unknown, String.ofList_toList] at read
      exact read
    · next flag known =>
      simp only [known, String.ofList_toList] at read
      split
      · next listed =>
        rw [if_pos listed] at read
        exact read
      · next fresh =>
        rw [if_neg fresh] at read
        change _ = readRules _ opened piece.rest at read
        rw [read]
        refine (look_follows_stage (After.standsAt source piece) rfl fun _ => rfl).bind ?_
        rintro next _ seen ⟨scanned, rfl⟩
        have looking : (Looking source next).StandsAt source piece.rest := .looked scanned
        dsimp only
        split
        · next pipe =>
          have token := Token.ne_endOfInput_of_mark pipe
          have further := readRules_of_nextToken (.afterValue selectors
            braced style (.attr (attrs ∪ .singleton flag))) opened rfl scanned token
          rw [pipe] at further
          rw [show readRules _ opened piece.rest = readRules (.attributeName selectors braced style
            (attrs ∪ .singleton flag)) opened next.rest from further]
          refine (drop_follows looking scanned).bind ?_
          rintro _ _ dropped rfl
          have more := readAttributes_follows _ next.rest (attrs ∪ .singleton flag)
            (After.standsAt source next)
          exact more.bind fun _ _ _ read => read
        · next other =>
          refine ⟨piece.rest, looking, fun found again => ?_, rfl⟩
          obtain rfl := Scan.nextToken_unique scanned again
          exact other
termination_by lexer.supply

/-- The next token of a text does not go on with a value: no bar stands behind attributes. -/
def EndsValue (setting : Setting) (text : List Char) : Prop :=
  ∀ piece, Scan.nextToken text = .ok piece →
    setting.property = .attr → piece.value ≠ .mark .pipe

/-- The value of a property is read where nothing is pending. -/
theorem readSetting_follows (property : Property) :
    Follows (readRules (Stage.valueOf selectors braced style property) opened text)
      (fun setting after => ∃ remainder, setting.property = property ∧
        after.StandsAt source remainder ∧ EndsValue setting remainder ∧
        readRules (Stage.valueOf selectors braced style property) opened text =
          readRules (.afterValue selectors braced style setting) opened remainder)
      (readSetting opened property { source, rest := text }) := by
  cases property with
  | fg =>
    refine (readColor_follows .fg).bind ?_
    rintro color _ read ⟨remainder, stands, same⟩
    exact ⟨remainder, rfl, stands, fun _ _ attr => Property.noConfusion attr, same⟩
  | bg =>
    refine (readColor_follows .bg).bind ?_
    rintro color _ read ⟨remainder, stands, same⟩
    exact ⟨remainder, rfl, stands, fun _ _ attr => Property.noConfusion attr, same⟩
  | attr =>
    refine (readAttributes_follows _ text ∅ .idle).bind ?_
    rintro attrs _ read ⟨remainder, stands, ends, same⟩
    exact ⟨remainder, rfl, stands, fun piece scanned _ => ends piece scanned, same⟩

end Values

/-! ### Declarations -/

section Declarations

variable {opened : List Char} {selectors : Selectors} {braced : Bool}

theorem accept_mark {mark : Mark} {token : Token} :
    (if token = .mark mark then some () else none) = some () ↔ token = .mark mark := by
  split <;> simp [*]

/-- A mark that a stage needs leads to the next stage. -/
theorem expectMark_follows {stage : Stage} {mark : Mark} {expected : Expectation} (next : Stage)
    (stands : lexer.StandsAt source text) (plain : stage.expectsColor = false)
    (inside : stage ≠ .between) (steps : stage.step (.mark mark) = .ok (.proceed next))
    (refuses : ∀ piece, Scan.nextToken text = .ok piece → piece.value ≠ .endOfInput →
      piece.value ≠ .mark mark →
      stage.step piece.value = .error (.unexpected expected piece.value)) :
    Follows (readRules stage opened text)
      (fun _ after => ∃ piece, after = After source piece ∧
        readRules stage opened text = readRules next opened piece.rest)
      (lexer.expectMark opened mark expected) := by
  refine expect_follows_step (fun _ => next) stands plain inside ?_ ?_
  · intro token value accepted
    rw [accept_mark.mp accepted]
    exact steps
  · intro piece scanned token refused
    refine refuses piece scanned token fun marked => ?_
    rw [if_pos marked] at refused
    cases refused

/-- The next token of a text does not go on with properties. -/
def EndsProperties (setting : Setting) (text : List Char) : Prop :=
  ∀ piece, Scan.nextToken text = .ok piece → piece.value ≠ .mark .comma ∧
    (setting.property = .attr → piece.value ≠ .mark .pipe)

/-- Properties are read up to a token that is no comma. -/
theorem readProperties_follows (lexer : Lexer) (text : List Char) (seen : List Property)
    (style : PartialStyle) (stands : lexer.StandsAt source text)
    (keys : ∀ property, property ∈ seen ↔ style.specifies property = true) :
    Follows (readRules (.key selectors braced style) opened text)
      (fun declaration after => ∃ before setting remainder,
        declaration = Stage.declarationOf before setting ∧ after.StandsAt source remainder ∧
        EndsProperties setting remainder ∧
        readRules (.key selectors braced style) opened text =
          readRules (.afterValue selectors braced before setting) opened remainder)
      (lexer.readProperties opened seen style) := by
  rw [readProperties]
  refine (expect_follows_inside stands rfl Stage.noConfusion ?_).bind ?_
  · intro piece _ _ refused
    cases value : piece.value with
    | identifier word =>
      rw [value] at refused
      cases refused
    | _ => rfl
  rintro ⟨word, start⟩ _ fewer ⟨piece, took⟩
  have named := identifier?_eq_some_iff.mp took.accepted
  have read := readRules_of_nextToken
    (.key selectors braced style) opened rfl took.scanned took.token
  rw [named] at read
  simp only [Stage.step, Stage.stepKey] at read
  obtain rfl : start = piece.start := took.start
  obtain rfl := took.after
  dsimp only
  split
  · next unknown =>
    rw [unknown] at read
    exact read
  · next property known =>
    simp only [known] at read
    split
    · next listed =>
      rw [if_pos ((keys property).mp listed)] at read
      exact read
    · next fresh =>
      rw [if_neg fun specified => fresh ((keys property).mpr specified)] at read
      change _ = readRules _ opened piece.rest at read
      rw [read]
      refine (expectMark_follows (Stage.valueOf selectors braced style property)
        (After.standsAt source piece) rfl Stage.noConfusion rfl ?_).bind ?_
      · intro found _ _ other
        cases value : found.value with
        | mark mark =>
          cases mark with
          | colon => exact absurd value other
          | _ => rfl
        | _ => rfl
      rintro _ _ passed ⟨colon, rfl, same⟩
      rw [same]
      refine (readSetting_follows property).bind ?_
      rintro setting valued stated ⟨remainder, about, further, ends, again⟩
      change valued.supply < (After source colon).supply + 1 at stated
      rw [again]
      refine (look_follows_stage further rfl fun _ => rfl).bind ?_
      rintro next _ looked ⟨scanned, rfl⟩
      have looking : (Looking source next).StandsAt source remainder := .looked scanned
      dsimp only
      split
      · next comma =>
        have token := Token.ne_endOfInput_of_mark comma
        have more := readRules_of_nextToken
          (.afterValue selectors braced style setting) opened rfl scanned token
        rw [comma] at more
        rw [show readRules _ opened remainder = readRules (.key selectors braced
          (style.set setting)) opened next.rest from more]
        refine (drop_follows looking scanned).bind ?_
        rintro _ _ dropped rfl
        have grown (other : Property) :
            other ∈ property :: seen ↔ (style.set setting).specifies other = true := by
          rw [List.mem_cons, keys, ← about, ← Decidable.not_iff_not, Bool.not_eq_true,
            PartialStyle.specifies_set, not_or, Bool.not_eq_true]
          exact and_comm
        exact (readProperties_follows _ next.rest (property :: seen) (style.set setting)
          (After.standsAt source next) grown).bind fun _ _ _ read => read
      · next other =>
        rw [Declaration.ofStyle?_set]
        refine ⟨style, setting, remainder, rfl, looking, fun found again => ?_, rfl⟩
        obtain rfl := Scan.nextToken_unique scanned again
        exact ⟨other, ends _ scanned⟩
termination_by lexer.supply

/-- Where a declaration has been read: a semicolon closes the rule, and no other token of the
remainder will do. -/
structure Closes (selectors : Selectors) (declaration : Declaration) (stage : Stage)
    (remainder : List Char) : Prop where
  plain : stage.expectsColor = false
  inside : stage ≠ .between
  closes : stage.step (.mark .semicolon) = .ok (.close (Stage.ruleOf selectors declaration))
  refuses : ∀ piece, Scan.nextToken remainder = .ok piece → piece.value ≠ .endOfInput →
    piece.value ≠ .mark .semicolon →
    stage.step piece.value = .error (.unexpected .ruleEnd piece.value)

/-- Behind properties, every token is refused but the one that they end with. -/
theorem step_afterValue_other {before : PartialStyle} {setting : Setting}
    (ends : EndsProperties setting text) {piece : Piece Token}
    (scanned : Scan.nextToken text = .ok piece)
    (other : piece.value ≠ .mark (if braced then .rightBrace else .semicolon)) :
    (Stage.afterValue selectors braced before setting).step piece.value =
      .error (.unexpected (if braced then .propertyEnd else .ruleEnd) piece.value) := by
  obtain ⟨noComma, noPipe⟩ := ends piece scanned
  cases value : piece.value with
  | mark mark =>
    rw [value] at noComma noPipe other
    cases mark with
    | comma => exact absurd rfl noComma
    | pipe =>
      cases setting with
      | attr attrs => exact absurd rfl (noPipe rfl)
      | _ => cases braced <;> rfl
    | rightBrace =>
      cases braced with
      | true => exact absurd rfl other
      | false => cases setting <;> rfl
    | semicolon =>
      cases braced with
      | true => cases setting <;> rfl
      | false => exact absurd rfl other
    | _ => cases braced <;> cases setting <;> rfl
  | _ => cases braced <;> cases setting <;> rfl

/-- Properties without braces are closed by the semicolon of their rule. -/
theorem closes_afterValue {before : PartialStyle} {setting : Setting}
    (ends : EndsProperties setting text) :
    Closes selectors (Stage.declarationOf before setting)
      (.afterValue selectors false before setting) text where
  plain := rfl
  inside := Stage.noConfusion
  closes := by cases setting <;> rfl
  refuses := fun _ scanned _ other => step_afterValue_other ends scanned other

theorem closes_ruleEnd (declaration : Declaration) :
    Closes selectors declaration (.ruleEnd selectors declaration) text where
  plain := rfl
  inside := Stage.noConfusion
  closes := rfl
  refuses := by
    intro piece _ _ other
    cases value : piece.value with
    | mark mark =>
      rw [value] at other
      cases mark with
      | semicolon => exact absurd rfl other
      | _ => rfl
    | _ => rfl

/-- No property has been read at the start. -/
theorem mem_nil_iff_specifies (property : Property) :
    property ∈ [] ↔ ({} : PartialStyle).specifies property = true := by
  cases property <;> simp [PartialStyle.specifies]

/-- A declaration is read up to where its rule is closed. -/
theorem readDeclaration_follows (stands : lexer.StandsAt source text) :
    Follows (readRules (.declaration selectors) opened text)
      (fun declaration after => ∃ stage remainder, after.StandsAt source remainder ∧
        Closes selectors declaration stage remainder ∧
        readRules (.declaration selectors) opened text = readRules stage opened remainder)
      (lexer.readDeclaration opened) := by
  refine (look_follows_stage stands rfl fun _ => rfl).bind ?_
  rintro piece _ seen ⟨scanned, rfl⟩
  have looking : (Looking source piece).StandsAt source text := .looked scanned
  have reads := readRules_of_nextToken (.declaration selectors) opened rfl
    scanned
  dsimp only
  split
  · next brace =>
    rw [brace] at reads
    rw [show readRules _ opened text = readRules (.key selectors true {}) opened piece.rest from
      reads Token.noConfusion]
    refine (drop_follows looking scanned).bind ?_
    rintro _ _ dropped rfl
    refine (readProperties_follows _ piece.rest [] {} (After.standsAt source piece)
      mem_nil_iff_specifies).bind ?_
    rintro _ after read ⟨before, setting, remainder, rfl, further, ends, same⟩
    rw [same]
    refine (expectMark_follows
      (.ruleEnd selectors (Stage.declarationOf before setting)) further rfl
      Stage.noConfusion (by cases setting <;> rfl)
      fun found again _ => step_afterValue_other ends again).bind ?_
    rintro _ _ passed ⟨closed, rfl, again⟩
    exact ⟨_, closed.rest, After.standsAt source closed, closes_ruleEnd _, again⟩
  · next noBrace =>
    split
    · next keyed =>
      -- The key is read again as the first one of properties without braces.
      obtain ⟨property, known⟩ := Option.isSome_iff_exists.mp keyed
      obtain ⟨word, named, known⟩ := Option.bind_eq_some_iff.mp known
      have named := identifier?_eq_some_iff.mp named
      have token : piece.value ≠ .endOfInput := by
        rw [named]
        exact Token.noConfusion
      have same : readRules (.declaration selectors) opened text =
          readRules (.key selectors false {}) opened text := by
        have other := readRules_of_nextToken
          (.key selectors false {}) opened rfl scanned token
        have unset : ({} : PartialStyle).specifies property = false := by cases property <;> rfl
        rw [reads token, other, named]
        simp only [Stage.step, Stage.stepDeclaration, Stage.stepKey, known, unset]
        rfl
      rw [same]
      refine (readProperties_follows _ text [] {} looking mem_nil_iff_specifies).bind ?_
      rintro _ after read ⟨before, setting, remainder, rfl, further, ends, again⟩
      exact ⟨_, remainder, further, closes_afterValue ends, again⟩
    · next noKey =>
      refine (expect_follows_inside looking rfl Stage.noConfusion ?_).bind ?_
      · intro found again _ refused
        obtain rfl := Scan.nextToken_unique scanned again
        cases value : found.value with
        | identifier word =>
          rw [value] at refused
          cases refused
        | mark mark =>
          rw [value] at noBrace
          cases mark with
          | leftBrace => exact absurd rfl noBrace
          | _ => rfl
        | _ => rfl
      · rintro ⟨word, start⟩ _ fewer ⟨found, took⟩
        have named := identifier?_eq_some_iff.mp took.accepted
        obtain rfl := Scan.nextToken_unique scanned took.scanned
        have unkeyed : Property.ofKey? word = none := by
          rw [named] at noKey
          simpa [identifier?] using noKey
        have read := reads took.token
        rw [named] at read
        simp only [Stage.step, Stage.stepDeclaration, unkeyed] at read
        obtain rfl : start = found.start := took.start
        obtain rfl := took.after
        dsimp only
        split
        · next group known =>
          simp only [known] at read
          exact ⟨_, found.rest, After.standsAt source found, closes_ruleEnd _, read⟩
        · next unknown =>
          simp only [unknown] at read
          exact read

end Declarations

/-! ### Rules -/

/-- The token after a selector that ends is no part of it, and only the colon is taken. -/
theorem step_selectorEnd {before : List Chain} {last : Chain} (ends : EndsChain text)
    (noComma : ∀ piece, Scan.nextToken text = .ok piece → piece.value ≠ .mark .comma)
    {piece : Piece Token} (scanned : Scan.nextToken text = .ok piece)
    (other : piece.value ≠ .mark .colon) :
    (Stage.afterKind before last).step piece.value =
      .error (.unexpected .selectorEnd piece.value) := by
  obtain ⟨unlinked, unnamed⟩ := ends piece scanned
  have noComma := noComma piece scanned
  cases value : piece.value with
  | identifier word =>
    rw [value] at unnamed
    cases unnamed
  | mark mark =>
    rw [value] at unlinked noComma other
    cases mark with
    | comma => exact absurd rfl noComma
    | colon => exact absurd rfl other
    | plus | tilde | greater => cases unlinked
    | _ => rfl
  | _ => rfl

/-- The first selector of a rule starts with the first token of the rule. -/
theorem readFirstSelector_follows (opened : List Char) {first : Piece Token}
    (scanned : Scan.nextToken text = .ok first) (token : first.value ≠ .endOfInput) :
    Follows (readRules .between opened text)
      (fun chain after => ∃ remainder, after.StandsAt source remainder ∧ EndsChain remainder ∧
        readRules .between opened text = readRules (.afterKind [] chain) first.start remainder)
      ((Looking source first).readSelector first.start) := by
  have looking : (Looking source first).StandsAt source text := .looked scanned
  have reads := readRules_of_nextToken .between opened rfl scanned token
  refine (expect_follows looking ?_ ?_ ?_).bind ?_
  · intro stray strays
    rw [scanned] at strays
    cases strays
  · intro piece again ended
    rw [Scan.nextToken_unique scanned again] at ended
    exact absurd ended token
  · intro piece again _ refused
    obtain rfl := Scan.nextToken_unique scanned again
    rw [reads, Stage.step, stepKind_of_not_identifier? refused]
    rfl
  · rintro ⟨kind, start⟩ _ fewer ⟨piece, took⟩
    obtain rfl := Scan.nextToken_unique scanned took.scanned
    obtain rfl := took.after
    rw [Stage.step, stepKind_of_identifier? took.accepted] at reads
    have more := readLinks_follows piece.start [] _ piece.rest ⟨kind, []⟩
      (After.standsAt source piece)
    rw [show readRules .between opened text = _ from reads]
    exact more.bind fun _ _ _ read => read

/-- A rule is read from its first token to its semicolon. -/
theorem readRule_follows (opened : List Char) (stands : lexer.StandsAt source text)
    {first : Piece Token} (scanned : Scan.nextToken text = .ok first)
    (token : first.value ≠ .endOfInput) :
    Follows (readRules .between opened text)
      (fun rule after => ∃ remainder, after.StandsAt source remainder ∧
        readRules .between opened text =
          match readRules .between [] remainder with
          | .ok rules => .ok (rule :: rules)
          | .error fault => .error fault)
      lexer.readRule := by
  refine (look_follows_stage stands rfl fun _ => rfl).bind ?_
  rintro _ _ seen ⟨again, rfl⟩
  obtain rfl := Scan.nextToken_unique again scanned
  refine (readFirstSelector_follows opened scanned token).bind ?_
  rintro chain after begun ⟨remainder, further, ends, same⟩
  rw [same]
  refine (readSelectors_follows after remainder [] chain further ends).bind ?_
  rintro _ listed more ⟨before, last, behind, rfl, further, ends, noComma, same⟩
  rw [same]
  refine (expectMark_follows (.declaration (Stage.withChain before last)) further rfl
    Stage.noConfusion rfl fun _ again _ => step_selectorEnd ends noComma again).bind ?_
  rintro _ _ passed ⟨colon, rfl, same⟩
  rw [same]
  refine (readDeclaration_follows (After.standsAt source colon)).bind ?_
  rintro declaration stated read ⟨stage, behind, further, closes, same⟩
  rw [same]
  refine (expect_follows_inside further closes.plain closes.inside ?_).bind ?_
  · intro piece again unended refused
    refine closes.refuses piece again unended fun marked => ?_
    rw [if_pos marked] at refused
    cases refused
  · rintro ⟨_, start⟩ _ closed ⟨piece, took⟩
    have closing := readRules_of_nextToken _ first.start closes.plain took.scanned took.token
    rw [accept_mark.mp took.accepted, closes.closes] at closing
    obtain rfl := took.after
    have made := Rule.ofSelectors?_selectors (Stage.withChain before last) declaration
    dsimp only
    rw [show Rule.ofSelectors? (before ++ [last]) declaration = _ from made]
    exact ⟨piece.rest, After.standsAt source piece, closing⟩

/-- **Reading by descent is reading by stages.**  From wherever a lexer stands between two
rules, the same rules are read, or the same fault is found; the lexer never fails, and no
constructor refuses its parts. -/
theorem readSheet_eq (lexer : Lexer) (text opened : List Char) (rules : List Rule)
    (stands : lexer.StandsAt source text) :
    lexer.readSheet rules =
      match readRules .between opened text with
      | .ok more => .ok (rules ++ more)
      | .error fault => .error (.error fault) := by
  rw [readSheet]
  have looks : Follows (readRules .between opened text)
      (fun piece after => Scan.nextToken text = .ok piece ∧ after = Looking source piece)
      (lexer.look none) := look_follows_stage stands rfl fun _ => rfl
  refine looks.bind_eq (fun fault failed => by rw [failed]) ?_
  rintro piece _ seen ⟨scanned, rfl⟩
  have looking : (Looking source piece).StandsAt source text := .looked scanned
  dsimp only
  split
  · next ended =>
    have read : Stage.between.readToken text = .ok piece := scanned
    rw [readRules_of_end read ended]
    simp only [List.append_nil]
    rfl
  · next token =>
    refine (readRule_follows opened looking scanned token).bind_eq
      (fun fault failed => by rw [failed]) ?_
    rintro rule after less ⟨remainder, further, same⟩
    rw [readSheet_eq after remainder [] (rules ++ [rule]) further, same]
    cases readRules .between [] remainder with
    | ok others => simp only [List.append_assoc, List.singleton_append]
    | error fault => rfl
termination_by lexer.supply

end Lexer

/-- **A source in memory is read to the stylesheet of its stages**, or to their fault. -/
theorem Stylesheet.ofSource_eq (source : List Text.CodePoint) :
    ofSource source =
      match readRules .between [] (source.map Text.CodePoint.standIn) with
      | .ok rules => .ok ⟨rules⟩
      | .error fault => .error (.error (SourceFailure.ofFault source fault)) := by
  have read := Lexer.readSheet_eq (.ofCharacters (source.map Text.CodePoint.standIn)) _ [] []
    .idle
  unfold ofSource
  rw [read]
  cases readRules .between [] (source.map Text.CodePoint.standIn) <;> rfl

/-- A fault of a source in memory stands in front of one of its ends. -/
theorem SourceFailure.exists_front {source : List Text.CodePoint} {fault : Fault}
    (failed : readRules .between [] (source.map Text.CodePoint.standIn) = .error fault) :
    ∃ front back, source = front ++ back ∧ fault.start = back.map Text.CodePoint.standIn := by
  obtain ⟨passed, whole⟩ := (readRules_between_suffix failed).1
  obtain ⟨front, back, rfl, _, same⟩ := List.map_eq_append_iff.mp whole.symm
  exact ⟨front, back, rfl, same.symm⟩

/-- What the text before an error makes of the error: it is reported if the text can be
encoded, and otherwise the first row of surrogates of the text is. -/
inductive SourceFailure.IsBehind (error : ParseError) (passed : List Text.CodePoint) :
    SourceFailure → Prop where
  | error (characters : ∀ point ∈ passed, point.isSurrogate = false) :
    IsBehind error passed (.error error)
  | unencodable {before row after : List Text.CodePoint} {first : Fin 0x800}
    (split : passed = before ++ .surrogate first :: (row ++ after))
    (characters : ∀ point ∈ before, point.isSurrogate = false)
    (surrogates : ∀ point ∈ row, point.isSurrogate = true)
    (stops : ∀ point ∈ after.head?, point.isSurrogate = false) :
    IsBehind error passed (.unencodable ⟨first, before.length, row.length + 1⟩)

theorem SourceFailure.isBehind_behind (passed : List Text.CodePoint) (error : ParseError) :
    (behind passed error).IsBehind error passed := by
  unfold behind
  split
  · next failure found =>
    obtain ⟨before, row, after, split, characters, surrogates, stops, start, count⟩ :=
      Text.unencodable?_eq_some_iff.mp found
    obtain ⟨first, _, _⟩ := failure
    obtain rfl := start
    obtain rfl := count
    exact .unencodable split characters surrogates stops
  · next none => exact .error (Text.unencodable?_eq_none_iff.mp none)

/-- **A source of characters is read as the text that it is.** -/
theorem Stylesheet.ofSource_codePoints (source : String) :
    ofSource (Text.codePoints source) =
      (ofString source).mapError fun error => .error (.error error) := by
  have characters := @Text.isSurrogate_of_mem_codePoints source
  have same := Text.map_standIn_codePoints source
  generalize Text.codePoints source = points at characters same
  rw [ofSource_eq, ofString, ofCharacters, ← same]
  cases read : readRules .between [] (points.map Text.CodePoint.standIn) with
  | ok rules => rfl
  | error fault =>
    obtain ⟨front, back, rfl, start⟩ := SourceFailure.exists_front read
    have plain : fault.cause.atPoint back.head? = fault.cause :=
      Cause.atPoint_of_character (fun point first => characters point
        (List.mem_append_right front (List.mem_of_head? first))) _
    have size : fault.start.length = back.length := by rw [start, List.length_map]
    dsimp only
    rw [SourceFailure.ofFault_append front size, plain,
      SourceFailure.behind_of_characters fun point member =>
        characters point (List.mem_append_left back member)]
    rfl

end TreeStyle
