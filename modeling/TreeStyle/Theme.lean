import TreeStyle.Highlight
import TreeStyle.Style

/-!
# Base themes

A base theme gives partial styles to highlight groups.  A group may be left out,
which is not the same as having an entry that specifies nothing.

Main statements: `lookup_insert_self` and `lookup_insert_other`.
-/

namespace TreeStyle

set_option autoImplicit false

/-- A base theme: at most one entry counts for each group, the first one listed. -/
structure Theme where
  entries : List (Highlight × PartialStyle) := []
  deriving DecidableEq, Repr

namespace Theme

/-- The entry of a group. -/
def lookup (theme : Theme) (group : Highlight) : Option PartialStyle :=
  (theme.entries.find? fun entry => entry.1 == group).map Prod.snd

/-- The theme with a new entry for a group, in place of the old one if there was one. -/
def insert (theme : Theme) (group : Highlight) (style : PartialStyle) : Theme :=
  ⟨theme.entries.filter (fun entry => entry.1 != group) ++ [(group, style)]⟩

theorem lookup_insert_self (theme : Theme) (group : Highlight) (style : PartialStyle) :
    (theme.insert group style).lookup group = some style := by
  have absent : (theme.entries.filter fun entry => entry.1 != group).find?
      (fun entry => entry.1 == group) = none := by
    rw [List.find?_eq_none]
    intro entry member
    have different := (List.mem_filter.mp member).2
    simpa using different
  simp [lookup, insert, List.find?_append, absent]

theorem lookup_insert_other (theme : Theme) {group other : Highlight} (style : PartialStyle)
    (different : other ≠ group) : (theme.insert group style).lookup other = theme.lookup other := by
  have kept : (theme.entries.filter fun entry => entry.1 != group).find?
      (fun entry => entry.1 == other) = theme.entries.find? fun entry => entry.1 == other := by
    induction theme.entries with
    | nil => rfl
    | cons entry rest ih =>
      by_cases same : entry.1 = group
      · have unequal : (group == other) = false := by
          simpa using fun equal => different equal.symm
        simp [same, unequal, ih]
      · simp [List.find?_cons, same, ih]
  have last : (group == other) = false := by simpa using fun equal => different equal.symm
  simp [lookup, insert, List.find?_append, kept, last]

end Theme

end TreeStyle
