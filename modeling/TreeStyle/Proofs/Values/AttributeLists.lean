import Mathlib.Data.List.Forall2
import Mathlib.Data.List.Perm.Basic
import TreeStyle.Proofs.Grammar.Acceptance
import TreeStyle.Proofs.Values.Spellings
import TreeStyle.Proofs.Values.Steps

/-!
# Lists of attribute names

A list of names states a set of attributes if its parts name attributes that are
pairwise distinct (`Attribute.Lists`).  The parts are read one after the other into a
set.  At each point the set has the attributes of the parts read so far, so a name that
is new to the set is new to the list, under whatever spelling.

The first part that names no attribute, or one that an earlier part names, decides why a
list is refused (`Attribute.Refused`).

Main statements: `Attribute.ofName?_eq_some_iff`, `AttributeSet.ofString_eq_ok_iff`,
`AttributeSet.ofString_eq_error_iff` and `AttributeSet.ofString_reads_lists`.
-/

namespace TreeStyle

set_option autoImplicit false

/-! ## Names -/

namespace Attribute

/-- A text that names an attribute: a spelling of it, case and blanks around it aside. -/
def IsName (text : List Char) (flag : Attribute) : Prop :=
  ∃ core, Text.IsCore text core ∧ Text.lower core ∈ flag.spellings

theorem isName_iff {text : List Char} {flag : Attribute} :
    IsName text flag ↔ Text.lower (Text.strip text) ∈ flag.spellings := by
  simp only [IsName, Text.isCore_iff, exists_eq_left]

/-- **An attribute is found under its names**, and under no other text. -/
theorem ofName?_eq_some_iff {text : List Char} {flag : Attribute} :
    ofName? text = some flag ↔ IsName text flag := by
  rw [isName_iff]
  exact Text.find?_spellings_iff (by decide +kernel) flag.mem_all

theorem ofName?_eq_none_iff {text : List Char} :
    ofName? text = none ↔ ∀ flag, ¬IsName text flag := by
  simp only [← ofName?_eq_some_iff, Option.eq_none_iff_forall_ne_some, ne_eq]

/-- A text names at most one attribute. -/
theorem IsName.unique {text : List Char} {flag other : Attribute} (named : IsName text flag)
    (also : IsName text other) : flag = other :=
  Option.some.inj ((ofName?_eq_some_iff.mpr named).symm.trans (ofName?_eq_some_iff.mpr also))

theorem isName_name (flag : Attribute) : IsName flag.name.toList flag :=
  ofName?_eq_some_iff.mp (ofName?_name flag)

/-! ## Lists of names -/

/-- Texts that name pairwise distinct attributes. -/
structure Lists (parts : List (List Char)) (flags : List Attribute) : Prop where
  named : List.Forall₂ IsName parts flags
  distinct : flags.Nodup

/-- Why a text is refused after the names of some attributes. -/
inductive Refused (earlier : List Attribute) (part : List Char) : AttributeError → Prop where
  | unknown (nameless : ∀ flag, ¬IsName part flag) :
      Refused earlier part (.unknown (String.ofList part))
  | duplicate {flag : Attribute} {core : List Char} (named : IsName part flag)
      (again : flag ∈ earlier) (isCore : Text.IsCore part core) :
      Refused earlier part (.duplicate (String.ofList core))

namespace Lists

variable {parts : List (List Char)} {flags : List Attribute}

theorem cons_iff {part : List Char} :
    Lists (part :: parts) flags ↔ ∃ flag others, flags = flag :: others ∧
      IsName part flag ∧ flag ∉ others ∧ Lists parts others := by
  constructor
  · rintro ⟨named, distinct⟩
    obtain ⟨flag, others, first, later, rfl⟩ := List.forall₂_cons_left_iff.mp named
    obtain ⟨fresh, distinct⟩ := List.nodup_cons.mp distinct
    exact ⟨flag, others, rfl, first, fresh, later, distinct⟩
  · rintro ⟨flag, others, rfl, first, fresh, later, distinct⟩
    exact ⟨.cons first later, List.nodup_cons.mpr ⟨fresh, distinct⟩⟩

/-- The attributes listed are those with a name among the parts. -/
theorem mem_iff (listed : Lists parts flags) {flag : Attribute} :
    flag ∈ flags ↔ ∃ part ∈ parts, IsName part flag := by
  obtain ⟨named, -⟩ := listed
  induction named with
  | nil => simp
  | cons first _ ih =>
    rw [List.mem_cons, List.exists_mem_cons_iff, ih]
    exact or_congr_left ⟨fun same => same ▸ first, fun also => also.unique first⟩

/-- Names in another order list the same attributes. -/
theorem of_perm (listed : Lists parts flags) {shuffled : List (List Char)}
    (reordered : shuffled.Perm parts) : ∃ others, Lists shuffled others ∧ others.Perm flags := by
  obtain ⟨others, named, same⟩ := List.perm_comp_forall₂ reordered listed.named
  exact ⟨others, ⟨named, same.nodup_iff.mpr listed.distinct⟩, same⟩

/-- The canonical names of distinct attributes list them. -/
theorem names (distinct : flags.Nodup) :
    Lists (flags.map fun flag => flag.name.toList) flags :=
  ⟨List.forall₂_map_left_iff.mpr (List.forall₂_same.mpr fun flag _ => isName_name flag), distinct⟩

end Lists

end Attribute

/-! ## Reading a list -/

namespace AttributeSet

open Attribute

/-- A part is refused after the names of the attributes that the set has. -/
theorem insertName_eq_error_iff {earlier : List Attribute} {part : List Char}
    {error : AttributeError} :
    (ofList earlier).insertName part = .error error ↔ Refused earlier part error := by
  constructor
  · intro refused
    unfold insertName at refused
    split at refused
    · next missed =>
      cases refused
      exact .unknown (ofName?_eq_none_iff.mp missed)
    · next flag found =>
      split at refused
      · next again =>
        cases refused
        exact .duplicate (ofName?_eq_some_iff.mp found) (mem_ofList.mp again)
          (Text.isCore_strip part)
      · cases refused
  · intro refused
    cases refused with
    | unknown nameless => simp only [insertName, ofName?_eq_none_iff.mpr nameless]
    | duplicate named again isCore =>
      obtain rfl := Text.isCore_iff.mp isCore
      simp only [insertName, ofName?_eq_some_iff.mpr named, if_pos (mem_ofList.mpr again)]

/-- Names that are new to a set and to each other are read into it. -/
theorem foldlM_insertName_eq_ok_iff {parts : List (List Char)} {attrs set : AttributeSet} :
    parts.foldlM insertName attrs = .ok set ↔
      ∃ flags, Lists parts flags ∧ (∀ flag ∈ flags, flag ∉ attrs) ∧
        set = attrs ∪ ofList flags := by
  induction parts generalizing attrs with
  | nil =>
    have none : attrs ∪ ofList [] = attrs := ext_mem fun flag => by
      rw [mem_union, mem_ofList]
      exact or_iff_left List.not_mem_nil
    constructor
    · rintro ⟨⟩
      exact ⟨[], ⟨.nil, .nil⟩, by simp, none.symm⟩
    · rintro ⟨_, ⟨⟨⟩, -⟩, -, rfl⟩
      rw [none]
      rfl
  | cons part parts ih =>
    rw [List.foldlM_cons, bind_eq_ok_iff]
    simp only [ih, insertName_eq_ok_iff, ofName?_eq_some_iff, Lists.cons_iff]
    -- A later name is new to the set with `flag` if it is new to `attrs` and is not `flag`.
    have fresh_iff (flag : Attribute) (others : List Attribute) :
        (∀ other ∈ others, other ∉ attrs ∪ singleton flag) ↔
          flag ∉ others ∧ ∀ other ∈ others, other ∉ attrs := by
      simp only [mem_union, mem_singleton, not_or]
      constructor
      · intro fresh
        exact ⟨fun again => (fresh flag again).2 rfl, fun other listed => (fresh other listed).1⟩
      · rintro ⟨new, fresh⟩ other listed
        exact ⟨fresh other listed, fun same => new (same ▸ listed)⟩
    constructor
    · rintro ⟨_, ⟨flag, named, new, rfl⟩, others, later, fresh, rfl⟩
      obtain ⟨once, fresh⟩ := (fresh_iff flag others).mp fresh
      refine ⟨_, ⟨flag, others, rfl, named, once, later⟩, ?_, union_ofList_cons attrs flag others⟩
      exact List.forall_mem_cons.mpr ⟨new, fresh⟩
    · rintro ⟨_, ⟨flag, others, rfl, named, once, later⟩, fresh, rfl⟩
      obtain ⟨new, fresh⟩ := List.forall_mem_cons.mp fresh
      exact ⟨_, ⟨flag, named, new, rfl⟩, others, later, (fresh_iff flag others).mpr ⟨once, fresh⟩,
        (union_ofList_cons attrs flag others).symm⟩

/-- The parts of a text between bars. -/
def partsOf (token : String) : List (List Char) := Text.partsAt '|' token.toList

variable {token : String} {set : AttributeSet} {flags : List Attribute}

/-- **A text is read to the set of the attributes that its parts list.** -/
theorem ofString_eq_ok_iff :
    ofString token = .ok set ↔ ∃ flags, Lists (partsOf token) flags ∧ set = ofList flags := by
  change (partsOf token).foldlM insertName ∅ = _ ↔ _
  simp [foldlM_insertName_eq_ok_iff, not_mem_empty, empty_union]

/-- **The first part that is refused after the ones before it** decides why a text is. -/
theorem ofString_eq_error_iff {error : AttributeError} :
    ofString token = .error error ↔
      ∃ before part after earlier, partsOf token = before ++ part :: after ∧
        Lists before earlier ∧ Refused earlier part error := by
  change (partsOf token).foldlM insertName ∅ = _ ↔ _
  simp only [foldlM_eq_error_iff, foldlM_insertName_eq_ok_iff, empty_union]
  constructor
  · rintro ⟨before, part, after, _, split, ⟨earlier, listed, -, rfl⟩, refused⟩
    exact ⟨before, part, after, earlier, split, listed, insertName_eq_error_iff.mp refused⟩
  · rintro ⟨before, part, after, earlier, split, listed, refused⟩
    exact ⟨before, part, after, _, split,
      ⟨earlier, listed, fun flag _ => not_mem_empty flag, rfl⟩,
      insertName_eq_error_iff.mpr refused⟩

theorem length_toList_ofList (distinct : flags.Nodup) :
    (ofList flags).toList.length = flags.length := by
  refine List.Perm.length_eq ?_
  refine (List.perm_ext_iff_of_nodup (nodup_toList _) distinct).mpr fun flag => ?_
  rw [mem_toList, mem_ofList]

theorem ofList_eq_of_perm {others : List Attribute} (same : others.Perm flags) :
    ofList others = ofList flags :=
  ext_mem fun flag => by rw [mem_ofList, mem_ofList, same.mem_iff]

/-- The parts of the canonical text of a set are the names of its members. -/
theorem partsOf_render (inhabited : set ≠ ∅) :
    partsOf set.render = set.toList.map fun flag => flag.name.toList := by
  have bar : "|".toList = ['|'] := by decide
  have free (flag : Attribute) : '|' ∉ flag.name.toList := by cases flag <;> decide
  rw [partsOf, render, String.toList_intercalate, bar, List.map_map]
  apply Text.partsAt_intercalate
  · simpa using toList_ne_nil inhabited
  · intro part listed
    obtain ⟨flag, -, rfl⟩ := List.mem_map.mp listed
    exact free flag

/-- **A set with members is read back from its canonical text.** -/
theorem ofString_render (inhabited : set ≠ ∅) : ofString set.render = .ok set := by
  refine ofString_eq_ok_iff.mpr ⟨set.toList, ?_, (ofList_toList set).symm⟩
  rw [partsOf_render inhabited]
  exact Lists.names (nodup_toList set)

/-! ## What is read -/

section Read

variable (read : ofString token = .ok set)
include read

theorem mem_iff_of_read {flag : Attribute} :
    flag ∈ set ↔ ∃ part ∈ partsOf token, IsName part flag := by
  obtain ⟨flags, listed, rfl⟩ := ofString_eq_ok_iff.mp read
  rw [mem_ofList, listed.mem_iff]

/-- Each part is the name of one more attribute. -/
theorem length_of_read : set.toList.length = (partsOf token).length := by
  obtain ⟨flags, listed, rfl⟩ := ofString_eq_ok_iff.mp read
  rw [length_toList_ofList listed.distinct, listed.named.length_eq]

theorem ne_empty_of_read : set ≠ ∅ := by
  rintro rfl
  have counted := length_of_read read
  exact Text.partsAt_ne_nil _ _ (List.eq_nil_of_length_eq_zero counted.symm)

/-- The order of the parts is immaterial. -/
theorem ofString_of_perm {other : String} (reordered : (partsOf other).Perm (partsOf token)) :
    ofString other = .ok set := by
  obtain ⟨flags, listed, rfl⟩ := ofString_eq_ok_iff.mp read
  obtain ⟨others, relisted, same⟩ := listed.of_perm reordered
  exact ofString_eq_ok_iff.mpr ⟨others, relisted, (ofList_eq_of_perm same).symm⟩

/-- Two texts are read to sets with one canonical text if they name the same attributes. -/
theorem render_eq_iff_of_read {other : String} {same : AttributeSet}
    (also : ofString other = .ok same) :
    same.render = set.render ↔ ∀ flag,
      (∃ part ∈ partsOf other, IsName part flag) ↔ ∃ part ∈ partsOf token, IsName part flag := by
  simp only [← mem_iff_of_read read, ← mem_iff_of_read also]
  constructor
  · intro written
    have back := ofString_render (ne_empty_of_read also)
    rw [written, ofString_render (ne_empty_of_read read)] at back
    obtain rfl := Except.ok.inj back
    exact fun _ => Iff.rfl
  · intro members
    rw [ext_mem members]

end Read

/-- **Reading attributes is exact.**  A text is read if its parts name attributes that are
pairwise distinct.  The set that it is read to has just these, as many as there are parts.
It is what the parts state in any order, and what its canonical text states, which no
other set has.  A text that is refused is refused for its first part that names no
attribute, or one that an earlier part names. -/
theorem ofString_reads_lists (token : String) :
    ((∃ set, ofString token = .ok set) ↔ ∃ flags, Lists (partsOf token) flags) ∧
    (∀ set, ofString token = .ok set →
      (∀ flag, flag ∈ set ↔ ∃ part ∈ partsOf token, IsName part flag) ∧
      set.toList.length = (partsOf token).length ∧
      (∀ shuffled : List (List Char), shuffled.Perm (partsOf token) →
        ofString (String.ofList (List.intercalate ['|'] shuffled)) = .ok set) ∧
      ofString set.render = .ok set ∧
      ∀ other same, ofString other = .ok same →
        (same.render = set.render ↔ ∀ flag, (∃ part ∈ partsOf other, IsName part flag) ↔
          ∃ part ∈ partsOf token, IsName part flag)) ∧
    ∀ error, ofString token = .error error ↔
      ∃ before part after earlier, partsOf token = before ++ part :: after ∧
        Lists before earlier ∧ Refused earlier part error := by
  refine ⟨?_, fun set read => ⟨?_, ?_, ?_, ?_, ?_⟩, fun error => ofString_eq_error_iff⟩
  · constructor
    · rintro ⟨set, read⟩
      obtain ⟨flags, listed, -⟩ := ofString_eq_ok_iff.mp read
      exact ⟨flags, listed⟩
    · rintro ⟨flags, listed⟩
      exact ⟨_, ofString_eq_ok_iff.mpr ⟨flags, listed, rfl⟩⟩
  · exact fun flag => mem_iff_of_read read
  · exact length_of_read read
  · intro shuffled reordered
    apply ofString_of_perm read
    rw [partsOf, String.toList_ofList, Text.partsAt_intercalate_of_perm reordered]
    exact reordered
  · exact ofString_render (ne_empty_of_read read)
  · exact fun other same also => render_eq_iff_of_read read also

/-- The order of names does not matter, and a second name of one attribute is refused
before a later name that nothing has. -/
theorem ofString_second_names :
    ofString "Slow_Blink| bold" = .ok (ofList [.bold, .slowBlink]) ∧
      ofString "bold|slowblink| SLOW-BLINK |none" = .error (.duplicate "SLOW-BLINK") := by
  have read : ofString " bold|Slow_Blink" = .ok (ofList [.bold, .slowBlink]) := by decide +kernel
  obtain ⟨-, -, reordered, -⟩ := (ofString_reads_lists " bold|Slow_Blink").2.1 _ read
  refine ⟨reordered ["Slow_Blink".toList, " bold".toList] (by decide), ?_⟩
  have refused := (ofString_reads_lists "bold|slowblink| SLOW-BLINK |none").2.2
  refine (refused _).mpr ⟨["bold".toList, "slowblink".toList], " SLOW-BLINK ".toList,
    ["none".toList], [.bold, .slowBlink], by decide, ⟨?_, by decide⟩, ?_⟩
  · exact .cons (ofName?_eq_some_iff.mp rfl) (.cons (ofName?_eq_some_iff.mp rfl) .nil)
  · have again : IsName " SLOW-BLINK ".toList .slowBlink := ofName?_eq_some_iff.mp rfl
    exact .duplicate again (by decide) (Text.isCore_strip _)

end AttributeSet

end TreeStyle
