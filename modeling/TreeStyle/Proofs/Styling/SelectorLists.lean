import Mathlib.Data.List.Forall2
import TreeStyle.Proofs.Styling.Cascade

/-!
# Lists of selectors

A list of selectors abbreviates one rule for each of them.  Where several selectors of a
rule match a node, the separate rules merge the same partial style several times in a row,
and that is the same as merging it once (`Style.merge_merge`).

So it does not matter either in which order a rule lists its selectors, or how often it
lists one of them: a rule counts if any of its selectors matches.

Main statement: `TreeView.Searchable.resolve_style_perSelector`.
-/

namespace TreeStyle

set_option autoImplicit false

/-! ## Merging again -/

theorem AttributeSet.union_union_self (left right : AttributeSet) :
    left ∪ right ∪ right = left ∪ right := by
  apply ext_mem
  intro flag
  simp only [mem_union, or_assoc, or_self]

/-- **A partial style that is merged twice in a row is merged once.** -/
theorem Style.merge_merge (base : Style) (override : PartialStyle) :
    (base.merge override).merge override = base.merge override := by
  obtain ⟨fg, bg, attrs⟩ := override
  simp only [merge, mk.injEq]
  refine ⟨?_, ?_, ?_⟩
  · cases fg <;> rfl
  · cases bg <;> rfl
  · cases attrs with
    | none => rfl
    | some attrs => exact base.attrs.union_union_self attrs

/-- Rules with one declaration, one at least, make the style that one of them makes. -/
theorem combine_of_declaration {theme : Theme} {declaration : Declaration} {rules : List Rule}
    (stated : ∀ rule ∈ rules, rule.declaration = declaration) (some : rules ≠ []) (base : Style) :
    combine theme base rules = (declaration.style? theme).elim base base.merge := by
  induction rules generalizing base with
  | nil => exact absurd rfl some
  | cons rule rules ih =>
    rw [combine_cons, stated rule List.mem_cons_self]
    cases rules with
    | nil => rfl
    | cons next rules =>
      rw [ih (fun other listed => stated other (List.mem_cons_of_mem _ listed))
        (List.cons_ne_nil next rules)]
      cases declaration.style? theme with
      | none => rfl
      | some style => exact base.merge_merge style

/-! ## One rule for each selector -/

/-- The rules that give a declaration to the nodes of one selector each. -/
def Rule.perSelector (rule : Rule) : List Rule :=
  rule.selectors.map fun chain => ⟨[chain], rule.declaration, List.cons_ne_nil chain []⟩

/-- The sheet with one rule for each selector, in file order. -/
def Stylesheet.perSelector (sheet : Stylesheet) : Stylesheet :=
  ⟨sheet.chains.map fun entry => ⟨[entry.1], entry.2, List.cons_ne_nil entry.1 []⟩⟩

theorem Stylesheet.rules_perSelector (sheet : Stylesheet) :
    sheet.perSelector.rules = sheet.rules.flatMap Rule.perSelector := by
  simp only [perSelector, chains, List.map_flatMap, List.map_map]
  rfl

/-- The two rules give the same declaration to the same selectors, whatever the order in
which they list them and however often they list each. -/
structure Rule.ListsSame (rule other : Rule) : Prop where
  declaration : other.declaration = rule.declaration
  mem_selectors : ∀ chain, chain ∈ other.selectors ↔ chain ∈ rule.selectors

section Holding

variable {Node : Type} (view : TreeView Node) (theme : Theme) (node : Node)

/-- The separate rules of which the selector holds make the style that the rule makes if one
of its selectors holds. -/
theorem Rule.combine_perSelector (rule : Rule) (base : Style) :
    combine theme base (rule.perSelector.filter fun single => single.holds view node) =
      if rule.holds view node then (rule.declaration.style? theme).elim base base.merge
      else base := by
  have single (chain : Chain) :
      Rule.holds view ⟨[chain], rule.declaration, List.cons_ne_nil chain []⟩ node =
        chain.holds view node := by
    simp [Rule.holds]
  split
  · next holds =>
    apply combine_of_declaration
    · intro other listed
      obtain ⟨chain, _, rfl⟩ := List.mem_map.mp (List.mem_filter.mp listed).1
      rfl
    · obtain ⟨chain, listed, matched⟩ := List.any_eq_true.mp holds
      apply List.ne_nil_of_mem
      exact List.mem_filter.mpr ⟨List.mem_map_of_mem listed, (single chain).trans matched⟩
  · next fails =>
    have none : (rule.perSelector.filter fun single => single.holds view node) = [] := by
      rw [List.filter_eq_nil_iff]
      intro other listed matched
      obtain ⟨chain, member, rfl⟩ := List.mem_map.mp listed
      rw [single] at matched
      exact fails (List.any_eq_true.mpr ⟨chain, member, matched⟩)
    rw [none]
    rfl

/-- **Separate rules make the same style**, on top of any style. -/
theorem combine_flatMap_perSelector (rules : List Rule) (base : Style) :
    combine theme base
        ((rules.flatMap Rule.perSelector).filter fun single => single.holds view node) =
      combine theme base (rules.filter fun rule => rule.holds view node) := by
  induction rules generalizing base with
  | nil => rfl
  | cons rule rules ih =>
    rw [List.flatMap_cons, List.filter_append, combine_append, Rule.combine_perSelector, ih,
      List.filter_cons]
    split
    · rw [combine_cons]
    · rfl

theorem Rule.ListsSame.holds_eq {rule other : Rule} (same : rule.ListsSame other) :
    other.holds view node = rule.holds view node := by
  rw [Bool.eq_iff_iff, holds, holds, List.any_eq_true, List.any_eq_true]
  simp only [same.mem_selectors]

/-- Rules that list the same selectors make the same style, on top of any style. -/
theorem combine_of_listsSame {rules others : List Rule}
    (same : List.Forall₂ Rule.ListsSame rules others) (base : Style) :
    combine theme base (others.filter fun rule => rule.holds view node) =
      combine theme base (rules.filter fun rule => rule.holds view node) := by
  induction same generalizing base with
  | nil => rfl
  | cons first _ ih =>
    rw [List.filter_cons, List.filter_cons, first.holds_eq]
    split
    · rw [combine_cons, combine_cons, first.declaration, ih]
    · exact ih base

end Holding

/-! ## Styles -/

/-- **A list of selectors abbreviates one rule for each of them.**  The sheet with one rule
for each selector gives a node the style that the sheet gives it, and so does a sheet of
which each rule lists the same selectors in another order or several times. -/
theorem TreeView.Searchable.resolve_style_perSelector {Node : Type} {view : TreeView Node}
    {member : Node → Prop} (searchable : view.Searchable member) (sheet : Stylesheet)
    (theme : Theme) {node : Node} (inside : member node) :
    (resolve view sheet.perSelector theme node).style = (resolve view sheet theme node).style ∧
      ∀ other : Stylesheet, List.Forall₂ Rule.ListsSame sheet.rules other.rules →
        (resolve view other theme node).style = (resolve view sheet theme node).style := by
  have style (sheet : Stylesheet) :
      (resolve view sheet theme node).style = sheet.styleOf view theme node :=
    searchable.resolveWith_style sheet theme inside (Memo.sound_empty _)
  rw [style, style]
  constructor
  · rw [Stylesheet.styleOf, Stylesheet.rules_perSelector, combine_flatMap_perSelector]
    rfl
  · intro other same
    rw [style]
    exact combine_of_listsSame view theme node same {}

/-- Both selectors of the first rule match the string of a small tree, and the rule after it
changes the colour. -/
theorem Forest.block_string_perSelector :
    let both : Rule :=
      ⟨[⟨"string", []⟩, ⟨"block", [(.child, "string")]⟩], .properties
        ⟨{ fg := some (.named .red), attrs := some (.singleton .bold) }, rfl⟩, by decide⟩
    let turned : Rule :=
      ⟨[⟨"block", [(.child, "string")]⟩, ⟨"string", []⟩, ⟨"string", []⟩], both.declaration,
        by decide⟩
    let blue : Rule :=
      ⟨[⟨"comment", [(.twin, "string")]⟩], .properties
        ⟨{ fg := some (.named .blue) }, rfl⟩, by decide⟩
    let style := (resolve block.view ⟨[both, blue]⟩ {} 1).style
    style = { fg := some (.named .blue), attrs := .singleton .bold } ∧
      (Stylesheet.perSelector ⟨[both, blue]⟩).rules.length = 3 ∧
      (resolve block.view (Stylesheet.perSelector ⟨[both, blue]⟩) {} 1).style = style ∧
      (resolve block.view ⟨[turned, blue]⟩ {} 1).style = style := by
  intro both turned blue style
  have searchable := wellFormed_block.toKeyed.searchable
  have inside : 1 < 3 := by decide
  have reordered : both.ListsSame turned := by
    refine ⟨rfl, fun chain => ?_⟩
    simp only [both, turned, List.mem_cons, List.not_mem_nil, or_false, or_self]
    exact or_comm
  obtain ⟨separate, same⟩ :=
    searchable.resolve_style_perSelector ⟨[both, blue]⟩ {} inside
  refine ⟨?_, rfl, separate, same ⟨[turned, blue]⟩ (.cons reordered (.cons ⟨rfl, ?_⟩ .nil))⟩
  · change (resolveWith block.view ⟨[both, blue]⟩ {} 1 {}).1.style = _
    rw [searchable.resolveWith_style _ _ inside (Memo.sound_empty _)]
    decide
  · exact fun chain => Iff.rfl

end TreeStyle
