import TreeStyle.Text.Blank
import TreeStyle.Text.Case
import TreeStyle.Text.Parts
import TreeStyle.Text.Quoted
import TreeStyle.Text.Spelling

/-!
# Text attributes

There are ten text attributes, each of which is on or off, so a set of them is
a word of ten bits.  Sets are written as the names of their members, in a fixed
order, with a bar in between, and read from names in any order, each at most
once.

Main statements: `AttributeSet.mem_union`, `AttributeSet.mem_singleton` and
`AttributeSet.ext_mem` (a set is determined by its members).
-/

namespace TreeStyle

set_option autoImplicit false

/-! ## Attributes -/

/-- The text attributes, in the order in which a set is written. -/
inductive Attribute where
  | bold | italic | underlined | dim | slowBlink | rapidBlink | crossedOut | framed | encircled
  | reverse
  deriving DecidableEq, Repr

namespace Attribute

/-- All attributes, in writing order. -/
def all : List Attribute :=
  [bold, italic, underlined, dim, slowBlink, rapidBlink, crossedOut, framed, encircled, reverse]

/-- The place of an attribute in the writing order. -/
def index : Attribute → Fin 10
  | bold => 0
  | italic => 1
  | underlined => 2
  | dim => 3
  | slowBlink => 4
  | rapidBlink => 5
  | crossedOut => 6
  | framed => 7
  | encircled => 8
  | reverse => 9

/-- The canonical name of an attribute. -/
def name : Attribute → String
  | bold => "bold"
  | italic => "italic"
  | underlined => "underlined"
  | dim => "dim"
  | slowBlink => "slow-blink"
  | rapidBlink => "rapid-blink"
  | crossedOut => "crossed-out"
  | framed => "framed"
  | encircled => "encircled"
  | reverse => "reverse"

/-- Every accepted lower-case spelling of an attribute. -/
def spellings (flag : Attribute) : List (List Char) :=
  Text.spellings flag.name.toList ++
    (if flag = underlined then ["underline".toList] else [])

/-- The attribute with the given spelling, blanks around it and case aside. -/
def ofName? (text : List Char) : Option Attribute :=
  let lowered := Text.lower (Text.strip text)
  all.find? fun flag => flag.spellings.contains lowered

theorem mem_all (flag : Attribute) : flag ∈ all := by cases flag <;> decide

end Attribute

/-! ## Sets of attributes -/

/-- A set of attributes: bit `a.index` tells whether `a` is a member. -/
structure AttributeSet where
  flags : BitVec 10
  deriving DecidableEq, Repr

/-- Why a list of attribute names is refused. -/
inductive AttributeError where
  /-- A name that no attribute has, as it was given. -/
  | unknown (name : String)
  /-- A name, blanks dropped, whose attribute was listed before. -/
  | duplicate (name : String)
  deriving DecidableEq, Repr

/-- The wording of a refusal. -/
def AttributeError.message : AttributeError → String
  | unknown name => "unknown attribute " ++ Text.quote name
  | duplicate name => "duplicate attribute " ++ Text.quote name

namespace AttributeSet

/-- The set without members. -/
def empty : AttributeSet := ⟨0⟩

/-- The set with one member. -/
def singleton (flag : Attribute) : AttributeSet :=
  ⟨BitVec.twoPow 10 flag.index.val⟩

/-- The members of either set. -/
def union (left right : AttributeSet) : AttributeSet := ⟨left.flags ||| right.flags⟩

/-- The set of the listed members. -/
def ofList (members : List Attribute) : AttributeSet :=
  members.foldl (fun set member => union set (singleton member)) empty

/-- Whether an attribute is a member. -/
def contains (set : AttributeSet) (flag : Attribute) : Bool :=
  set.flags.getLsbD flag.index.val

instance : EmptyCollection AttributeSet := ⟨empty⟩

instance : Union AttributeSet := ⟨union⟩

instance : Membership Attribute AttributeSet := ⟨fun set flag => set.contains flag = true⟩

instance (flag : Attribute) (set : AttributeSet) : Decidable (flag ∈ set) :=
  inferInstanceAs (Decidable (set.contains flag = true))

/-- The members in writing order. -/
def toList (set : AttributeSet) : List Attribute := Attribute.all.filter (· ∈ set)

/-- The set as a number in which attribute number `i` counts 2 to the power of `i`. -/
def toNat (set : AttributeSet) : Nat := set.flags.toNat

/-- The set with the given number, taken modulo 1024. -/
def ofNat (number : Nat) : AttributeSet := ⟨BitVec.ofNat 10 number⟩

/-- The canonical text of a set. -/
def render (set : AttributeSet) : String :=
  "|".intercalate (set.toList.map Attribute.name)

/-! ### Reading lists of names -/

/-- The set with one more member, named by a text that must not name an old one. -/
def insertName (set : AttributeSet) (text : List Char) : Except AttributeError AttributeSet :=
  match Attribute.ofName? text with
  | none => .error (.unknown (String.ofList text))
  | some flag =>
    if flag ∈ set then .error (.duplicate (String.ofList (Text.strip text)))
    else .ok (set ∪ singleton flag)

/-- The set that a list of names with bars in between states. -/
def ofString (token : String) : Except AttributeError AttributeSet :=
  (Text.partsAt '|' token.toList).foldlM insertName ∅

/-! ### Membership -/

theorem not_mem_empty (flag : Attribute) : flag ∉ (∅ : AttributeSet) := by
  cases flag <;> decide

theorem mem_union {flag : Attribute} {left right : AttributeSet} :
    flag ∈ left ∪ right ↔ flag ∈ left ∨ flag ∈ right := by
  change (left.flags ||| right.flags).getLsbD flag.index.val = true ↔
    left.flags.getLsbD flag.index.val = true ∨ right.flags.getLsbD flag.index.val = true
  simp

theorem mem_singleton {flag member : Attribute} :
    flag ∈ singleton member ↔ flag = member := by
  cases flag <;> cases member <;> decide

/-- **A set is determined by its members.** -/
theorem ext_mem {left right : AttributeSet}
    (same : ∀ flag, flag ∈ left ↔ flag ∈ right) : left = right := by
  have bits : left.flags = right.flags := by
    apply BitVec.eq_of_getLsbD_eq
    intro place bound
    have find : ∃ flag : Attribute, flag.index.val = place := by
      have listed : ∀ number : Fin 10, ∃ flag : Attribute, flag.index = number := by
        intro number
        match number with
        | 0 => exact ⟨.bold, rfl⟩
        | 1 => exact ⟨.italic, rfl⟩
        | 2 => exact ⟨.underlined, rfl⟩
        | 3 => exact ⟨.dim, rfl⟩
        | 4 => exact ⟨.slowBlink, rfl⟩
        | 5 => exact ⟨.rapidBlink, rfl⟩
        | 6 => exact ⟨.crossedOut, rfl⟩
        | 7 => exact ⟨.framed, rfl⟩
        | 8 => exact ⟨.encircled, rfl⟩
        | 9 => exact ⟨.reverse, rfl⟩
      obtain ⟨flag, placed⟩ := listed ⟨place, bound⟩
      exact ⟨flag, congrArg Fin.val placed⟩
    obtain ⟨flag, rfl⟩ := find
    exact Bool.eq_iff_iff.mpr (same flag)
  cases left
  cases right
  exact congrArg AttributeSet.mk bits

end AttributeSet

end TreeStyle
