import TreeStyle.Cascade

/-!
# Cached styles

A host that draws the same tree many times keeps the styles it got.  The cache
holds for one version of a tree and one stylesheet: it has to be invalidated
when the tree changes, and it invalidates itself when the stylesheet is swapped.
Until then a style that was got once is not looked into again, and neither is an
answer in the memo.

Main statements: `get_of_cached` (a style that was got is got again, and the
cache stays as it is) and `contains_get`.
-/

namespace TreeStyle

set_option autoImplicit false

/-- A stylesheet with a base theme, and what was found out with them. -/
structure StyleCache where
  sheet : Stylesheet
  theme : Theme
  /-- The styles that were got, under the keys of their nodes. -/
  styles : Std.HashMap Int Style := {}
  memo : Memo := {}
  /-- The number of times the cache was invalidated. -/
  version : Nat := 0

namespace StyleCache

/-- The number of nodes whose style is kept. -/
def size (cache : StyleCache) : Nat := cache.styles.size

/-- The cache without anything found out; the event tells how many styles it drops. -/
def invalidate (cache : StyleCache) : StyleCache × List Log.Event :=
  ({ cache with styles := {}, memo := {}, version := cache.version + 1 },
    [.invalidated cache.size])

/-- The cache with another stylesheet and, if one is given, another base theme. -/
def swap (cache : StyleCache) (sheet : Stylesheet) (theme : Option Theme) :
    StyleCache × List Log.Event :=
  let swapped := { cache with sheet, theme := theme.getD cache.theme }
  let (fresh, events) := swapped.invalidate
  (fresh, .swapped sheet.rules.length :: events)

section Nodes

variable {Node : Type} (view : TreeView Node)

/-- Whether the style of a node is kept. -/
def contains (cache : StyleCache) (node : Node) : Bool := cache.styles.contains (view.key node)

/-- The style of a node: the one that is kept, or else the one found now, which is
kept from then on. -/
def get (cache : StyleCache) (node : Node) : Style × List Log.Event × StyleCache :=
  match cache.styles[view.key node]? with
  | some style => (style, [], cache)
  | none =>
    let found := resolveWith view cache.sheet cache.theme node cache.memo
    (found.1.style, found.1.events,
      { cache with
        styles := cache.styles.insert (view.key node) found.1.style, memo := found.2 })

/-- A style that was got is got again, and the cache stays as it is. -/
theorem get_of_cached {cache : StyleCache} {node : Node} {style : Style}
    (cached : cache.styles[view.key node]? = some style) :
    cache.get view node = (style, [], cache) := by
  simp [get, cached]

/-- The style of a node is kept once it was got. -/
theorem contains_get (cache : StyleCache) (node : Node) :
    (cache.get view node).2.2.contains view node = true := by
  unfold get
  split
  · next style cached =>
    simp only [contains]
    rw [Std.HashMap.contains_eq_isSome_getElem?, cached]
    rfl
  · simp [contains]

end Nodes

end StyleCache

end TreeStyle
