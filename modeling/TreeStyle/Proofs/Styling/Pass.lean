import TreeStyle.Cascade
import TreeStyle.Proofs.Matching.Memo

/-!
# Passes over a tree

A pass asks one question after the other, about the nodes of one tree and the selectors
of one sheet, and hands the memo of a question to the next one.  The questions of a pass
are of three sizes: whether a selector matches, which rules match, and which style comes
out of them.  The larger ones ask the smaller ones from left to right.

So a property of memos that each selector preserves is preserved by all questions
(`Memo.Preserves`), and what the selectors answer by such memos decides what the rules
and the styles are (`Memo.Answers`).

Main statements: `resolveWith_preserves`, `resolveWith_eq`,
`TreeView.Searchable.resolveTree_eq` and `TreeView.Searchable.sound_of_pass`.
-/

namespace TreeStyle

set_option autoImplicit false

/-! ## Questions from left to right -/

namespace Memo

/-- A question turns memos with a property into memos with the property. -/
def Preserves {Result : Type} (property : Memo → Prop) (ask : StateM Memo Result) : Prop :=
  ∀ memo : Memo, property memo → property (ask memo).2

/-- A question has an expected result by every memo with a property. -/
def Answers {Result : Type} (property : Memo → Prop) (ask : StateM Memo Result)
    (expected : Result) : Prop :=
  ∀ memo : Memo, property memo → (ask memo).1 = expected

section Lists

variable {Item : Type} {property : Memo → Prop} {ask : Item → StateM Memo Bool}
  {expected : Item → Bool} {items : List Item}

theorem preserves_anyM (kept : ∀ item ∈ items, Preserves property (ask item)) :
    Preserves property (items.anyM ask) := by
  intro memo held
  induction items generalizing memo with
  | nil => exact held
  | cons item items ih =>
    have after := kept item List.mem_cons_self memo held
    rw [anyM_cons_run]
    split
    · exact after
    · exact ih (fun other listed => kept other (List.mem_cons_of_mem _ listed)) _ after

theorem answers_anyM (kept : ∀ item ∈ items, Preserves property (ask item))
    (right : ∀ item ∈ items, Answers property (ask item) (expected item)) :
    Answers property (items.anyM ask) (items.any expected) := by
  intro memo held
  induction items generalizing memo with
  | nil => rfl
  | cons item items ih =>
    have after := kept item List.mem_cons_self memo held
    rw [anyM_cons_run, List.any_cons, ← right item List.mem_cons_self memo held]
    cases (ask item memo).1 with
    | true => rfl
    | false =>
      exact ih (fun other listed => kept other (List.mem_cons_of_mem _ listed))
        (fun other listed => right other (List.mem_cons_of_mem _ listed)) _ after

/-- What was found so far stands in front of what is found later. -/
theorem filterAuxM_run (ask : Item → StateM Memo Bool) (items found : List Item) (memo : Memo) :
    items.filterAuxM ask found memo =
      ((items.filterAuxM ask [] memo).1 ++ found, (items.filterAuxM ask [] memo).2) := by
  induction items generalizing found memo with
  | nil => rfl
  | cons item items ih =>
    change items.filterAuxM ask (cond (ask item memo).1 (item :: found) found) (ask item memo).2 =
      ((items.filterAuxM ask (cond (ask item memo).1 [item] []) (ask item memo).2).1 ++ found,
        (items.filterAuxM ask (cond (ask item memo).1 [item] []) (ask item memo).2).2)
    rw [ih (cond (ask item memo).1 (item :: found) found), ih (cond (ask item memo).1 [item] [])]
    cases (ask item memo).1 <;> simp

/-- An item is kept if it is answered yes; the others are asked after it. -/
theorem filterM_cons_run (ask : Item → StateM Memo Bool) (item : Item) (items : List Item)
    (memo : Memo) :
    (item :: items).filterM ask memo =
      let rest := items.filterM ask (ask item memo).2
      (if (ask item memo).1 then item :: rest.1 else rest.1, rest.2) := by
  change ((items.filterAuxM ask (cond (ask item memo).1 [item] []) (ask item memo).2).1.reverse,
      (items.filterAuxM ask (cond (ask item memo).1 [item] []) (ask item memo).2).2) =
    (if (ask item memo).1 then item :: (items.filterAuxM ask [] (ask item memo).2).1.reverse
      else (items.filterAuxM ask [] (ask item memo).2).1.reverse,
      (items.filterAuxM ask [] (ask item memo).2).2)
  rw [filterAuxM_run ask items (cond (ask item memo).1 [item] [])]
  cases (ask item memo).1 <;> simp

theorem preserves_filterM (kept : ∀ item ∈ items, Preserves property (ask item)) :
    Preserves property (items.filterM ask) := by
  intro memo held
  induction items generalizing memo with
  | nil => exact held
  | cons item items ih =>
    rw [filterM_cons_run]
    exact ih (fun other listed => kept other (List.mem_cons_of_mem _ listed)) _
      (kept item List.mem_cons_self memo held)

theorem answers_filterM (kept : ∀ item ∈ items, Preserves property (ask item))
    (right : ∀ item ∈ items, Answers property (ask item) (expected item)) :
    Answers property (items.filterM ask) (items.filter expected) := by
  intro memo held
  induction items generalizing memo with
  | nil => rfl
  | cons item items ih =>
    have later := ih (fun other listed => kept other (List.mem_cons_of_mem _ listed))
      (fun other listed => right other (List.mem_cons_of_mem _ listed)) _
      (kept item List.mem_cons_self memo held)
    rw [filterM_cons_run, List.filter_cons, ← right item List.mem_cons_self memo held]
    exact congrArg (fun rest => if (ask item memo).1 then item :: rest else rest) later

end Lists

/-- Questions that are answered right one by one are answered right as a list. -/
theorem answers_mapM {Item Result : Type} {property : Memo → Prop}
    {ask : Item → StateM Memo Result} {expected : Item → Result} {items : List Item}
    (kept : ∀ item ∈ items, Preserves property (ask item))
    (right : ∀ item ∈ items, Answers property (ask item) (expected item)) :
    Answers property (items.mapM ask) (items.map expected) := by
  intro memo held
  induction items generalizing memo with
  | nil => rfl
  | cons item items ih =>
    have later := ih (fun other listed => kept other (List.mem_cons_of_mem _ listed))
      (fun other listed => right other (List.mem_cons_of_mem _ listed)) _
      (kept item List.mem_cons_self memo held)
    rw [List.mapM_cons, List.map_cons, ← right item List.mem_cons_self memo held, ← later]
    rfl

end Memo

/-! ## Selectors of a sheet -/

namespace Stylesheet

/-- Whether a chain is the selector at a place. -/
def Lists (sheet : Stylesheet) (place : SelectorPlace) (chain : Chain) : Prop :=
  ∃ rule, sheet.rules[place.rule]? = some rule ∧ rule.selectors[place.selector]? = some chain

/-- The selector at a place; where there is none, some chain. -/
def chainAt (sheet : Stylesheet) (place : SelectorPlace) : Chain :=
  ((sheet.rules[place.rule]?).bind fun rule => rule.selectors[place.selector]?).getD ⟨"", []⟩

theorem chainAt_eq {sheet : Stylesheet} {place : SelectorPlace} {chain : Chain}
    (listed : sheet.Lists place chain) : sheet.chainAt place = chain := by
  obtain ⟨rule, ruleListed, chainListed⟩ := listed
  rw [chainAt, ruleListed, Option.bind_some, chainListed, Option.getD_some]

end Stylesheet

/-! ## Rules and styles -/

/-- Whether one of the selectors of a rule matches a node. -/
def Rule.holds {Node : Type} (view : TreeView Node) (rule : Rule) (node : Node) : Bool :=
  rule.selectors.any fun chain => chain.holds view node

/-- The style that the rules make of which one selector holds. -/
def Stylesheet.styleOf {Node : Type} (view : TreeView Node) (sheet : Stylesheet) (theme : Theme)
    (node : Node) : Style :=
  combine theme {} (sheet.rules.filter fun rule => rule.holds view node)

/-- The rules of which one selector holds, with their positions, in file order. -/
def Stylesheet.holding {Node : Type} (view : TreeView Node) (sheet : Stylesheet) (node : Node) :
    List (Nat × Rule) :=
  (sheet.rules.zipIdx.filter fun entry => entry.1.holds view node).map fun entry =>
    (entry.2, entry.1)

/-- The style of a node and the events of finding it, by the rules of which one selector
holds. -/
def Stylesheet.resolution {Node : Type} (view : TreeView Node) (sheet : Stylesheet)
    (theme : Theme) (node : Node) : Resolution where
  style := combine theme {} ((sheet.holding view node).map Prod.snd)
  events := (sheet.holding view node).map (matchEvent theme (view.kind node))

theorem Stylesheet.map_snd_holding {Node : Type} (view : TreeView Node) (sheet : Stylesheet)
    (node : Node) :
    (sheet.holding view node).map Prod.snd =
      sheet.rules.filter fun rule => rule.holds view node := by
  have rules : (sheet.holding view node).map Prod.snd =
      (sheet.rules.zipIdx.filter fun entry => entry.1.holds view node).map Prod.fst := by
    rw [holding, List.map_map]
    rfl
  rw [rules, ← List.zipIdx_map_fst 0 sheet.rules, List.filter_map, List.zipIdx_map_fst]
  rfl

section Rules

variable {Node : Type} {view : TreeView Node} {sheet : Stylesheet} {node : Node}
  {property : Memo → Prop}
  (kept : ∀ place chain, sheet.Lists place chain →
    Memo.Preserves property (matchesWith view place chain node))
include kept

theorem ruleMatchesWith_preserves {position : Nat} {rule : Rule}
    (listed : sheet.rules[position]? = some rule) :
    Memo.Preserves property (ruleMatchesWith view position rule node) := by
  apply Memo.preserves_anyM
  rintro ⟨chain, number⟩ member
  exact kept ⟨position, number⟩ chain ⟨rule, listed, List.mem_zipIdx_iff_getElem?.mp member⟩

theorem matchingRulesWith_preserves :
    Memo.Preserves property (matchingRulesWith view sheet node) := by
  have found : Memo.Preserves property
      (sheet.rules.zipIdx.filterM fun entry => ruleMatchesWith view entry.2 entry.1 node) := by
    apply Memo.preserves_filterM
    rintro ⟨rule, position⟩ member
    exact ruleMatchesWith_preserves kept (List.mem_zipIdx_iff_getElem?.mp member)
  exact found

/-- **What each selector of a sheet preserves is preserved by finding a style.** -/
theorem resolveWith_preserves (theme : Theme) :
    Memo.Preserves property (resolveWith view sheet theme node) :=
  fun memo held => matchingRulesWith_preserves kept memo held

variable (right : ∀ place chain, sheet.Lists place chain →
  Memo.Answers property (matchesWith view place chain node) (chain.holds view node))
include right

theorem ruleMatchesWith_answers {position : Nat} {rule : Rule}
    (listed : sheet.rules[position]? = some rule) :
    Memo.Answers property (ruleMatchesWith view position rule node) (rule.holds view node) := by
  have lists {entry : Chain × Nat} (member : entry ∈ rule.selectors.zipIdx) :
      sheet.Lists ⟨position, entry.2⟩ entry.1 :=
    ⟨rule, listed, List.mem_zipIdx_iff_getElem?.mp member⟩
  have answers := Memo.answers_anyM (fun entry member => kept _ _ (lists member))
    fun entry member => right _ _ (lists member)
  rw [Rule.holds, ← List.zipIdx_map_fst 0 rule.selectors, List.any_map]
  exact answers

/-- The rules that are found are those of which one selector holds, in file order. -/
theorem matchingRulesWith_eq {memo : Memo} (held : property memo) :
    (matchingRulesWith view sheet node memo).1 = sheet.holding view node := by
  have listed {entry : Rule × Nat} (member : entry ∈ sheet.rules.zipIdx) :
      sheet.rules[entry.2]? = some entry.1 := List.mem_zipIdx_iff_getElem?.mp member
  have found := Memo.answers_filterM
    (fun entry member => ruleMatchesWith_preserves kept (listed member))
    (fun entry member => ruleMatchesWith_answers kept right (listed member)) memo held
  exact congrArg (List.map fun entry : Rule × Nat => (entry.2, entry.1)) found

/-- **The rules of which one selector holds make the style and the events.** -/
theorem resolveWith_eq (theme : Theme) {memo : Memo} (held : property memo) :
    (resolveWith view sheet theme node memo).1 = sheet.resolution view theme node := by
  rw [Stylesheet.resolution, ← matchingRulesWith_eq kept right held]
  rfl

/-- **The style of a node is made by the rules of which one selector holds.** -/
theorem resolveWith_style (theme : Theme) {memo : Memo} (held : property memo) :
    (resolveWith view sheet theme node memo).1.style = sheet.styleOf view theme node := by
  rw [resolveWith_eq kept right theme held, Stylesheet.styleOf, ← sheet.map_snd_holding]
  rfl

end Rules

/-! ## Memos of a pass -/

section Pass

variable {Node : Type} (view : TreeView Node) (member : Node → Prop) (sheet : Stylesheet)

/-- The memos that a pass over the members hands from one question to the next. -/
inductive Memo.OfPass : Memo → Prop where
  | start : OfPass {}
  /-- After asking whether a selector of the sheet matches. -/
  | matched {memo : Memo} (before : OfPass memo) {place : SelectorPlace} {chain : Chain}
      (listed : sheet.Lists place chain) {node : Node} (inside : member node) :
      OfPass (matchesWith view place chain node memo).2
  /-- After asking which rules match. -/
  | searched {memo : Memo} (before : OfPass memo) {node : Node} (inside : member node) :
      OfPass (matchingRulesWith view sheet node memo).2
  /-- After asking for a style, by whatever base theme. -/
  | resolved {memo : Memo} (before : OfPass memo) (theme : Theme) {node : Node}
      (inside : member node) : OfPass (resolveWith view sheet theme node memo).2

end Pass

namespace TreeView.Searchable

variable {Node : Type} {view : TreeView Node} {member : Node → Prop}
  (searchable : view.Searchable member)
include searchable

/-- A selector of the sheet leaves a memo sound. -/
theorem matchesWith_preserves (sheet : Stylesheet) {node : Node} (inside : member node)
    (place : SelectorPlace) (chain : Chain) (listed : sheet.Lists place chain) :
    Memo.Preserves (Memo.Sound · (MemoKey.States view member sheet.chainAt))
      (matchesWith view place chain node) := by
  intro memo sound
  obtain rfl := Stylesheet.chainAt_eq listed
  have course := (searchable.matchesWith_spec sheet.chainAt place inside memo sound).2.mono
    fun _ _ written => written.states
  exact course.sound sound _ course.last_mem

/-- A selector of the sheet is answered right by a sound memo. -/
theorem matchesWith_answers (sheet : Stylesheet) {node : Node} (inside : member node)
    (place : SelectorPlace) (chain : Chain) (listed : sheet.Lists place chain) :
    Memo.Answers (Memo.Sound · (MemoKey.States view member sheet.chainAt))
      (matchesWith view place chain node) (chain.holds view node) := by
  intro memo sound
  obtain rfl := Stylesheet.chainAt_eq listed
  exact (searchable.matchesWith_spec sheet.chainAt place inside memo sound).1

/-- **Without a memo, the rules that are found are those of which one selector holds.** -/
theorem matchingRules_eq (sheet : Stylesheet) {node : Node} (inside : member node) :
    matchingRules view sheet node = sheet.holding view node :=
  matchingRulesWith_eq (searchable.matchesWith_preserves sheet inside)
    (searchable.matchesWith_answers sheet inside) (Memo.sound_empty _)

theorem resolve_eq (sheet : Stylesheet) (theme : Theme) {node : Node} (inside : member node) :
    resolve view sheet theme node = sheet.resolution view theme node :=
  TreeStyle.resolveWith_eq (searchable.matchesWith_preserves sheet inside)
    (searchable.matchesWith_answers sheet inside) theme (Memo.sound_empty _)

/-- **One memo for all nodes under a root makes no difference.** -/
theorem resolveTree_eq (sheet : Stylesheet) (theme : Theme) {root : Node}
    (inside : ∀ entry ∈ view.walk root, member entry.1) :
    resolveTree view sheet theme root =
      (view.walk root).map fun entry =>
        ⟨entry.1, entry.2, sheet.resolution view theme entry.1⟩ := by
  have answers : Memo.Answers (Memo.Sound · (MemoKey.States view member sheet.chainAt))
      ((view.walk root).mapM fun entry => do
        return (⟨entry.1, entry.2, ← resolveWith view sheet theme entry.1⟩ : StyledNode Node))
      ((view.walk root).map fun entry =>
        ⟨entry.1, entry.2, sheet.resolution view theme entry.1⟩) := by
    refine Memo.answers_mapM (fun entry listed memo sound => ?_) fun entry listed memo sound => ?_
    · exact resolveWith_preserves (searchable.matchesWith_preserves sheet (inside entry listed))
        theme memo sound
    · rw [← TreeStyle.resolveWith_eq
        (searchable.matchesWith_preserves sheet (inside entry listed))
        (searchable.matchesWith_answers sheet (inside entry listed)) theme sound]
      rfl
  exact answers {} (Memo.sound_empty _)

/-- **A sound memo makes no difference to a style.** -/
theorem resolveWith_style (sheet : Stylesheet) (theme : Theme) {node : Node}
    (inside : member node) {memo : Memo}
    (sound : memo.Sound (MemoKey.States view member sheet.chainAt)) :
    (resolveWith view sheet theme node memo).1.style = sheet.styleOf view theme node :=
  TreeStyle.resolveWith_style (searchable.matchesWith_preserves sheet inside)
    (searchable.matchesWith_answers sheet inside) theme sound

/-- **The memos of a pass are sound.** -/
theorem sound_of_pass {sheet : Stylesheet} {memo : Memo} (pass : memo.OfPass view member sheet) :
    memo.Sound (MemoKey.States view member sheet.chainAt) := by
  induction pass with
  | start => exact Memo.sound_empty _
  | matched _ listed inside ih =>
    exact searchable.matchesWith_preserves sheet inside _ _ listed _ ih
  | searched _ inside ih =>
    exact matchingRulesWith_preserves (searchable.matchesWith_preserves sheet inside) _ ih
  | resolved _ theme inside ih =>
    exact resolveWith_preserves (searchable.matchesWith_preserves sheet inside) theme _ ih

end TreeView.Searchable

end TreeStyle
