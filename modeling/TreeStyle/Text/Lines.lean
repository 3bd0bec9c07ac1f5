/-!
# Line endings

Text files end their lines by a line feed, by a carriage return, or by both.  A
file that is read as text has line feeds alone.

Main statement: `withLineFeeds_eq_self` (a text without carriage returns is left
alone).
-/

namespace TreeStyle.Text

set_option autoImplicit false

/-- The text with a line feed at the end of every line. -/
def withLineFeeds : List Char → List Char
  | '\r' :: '\n' :: rest => '\n' :: withLineFeeds rest
  | '\r' :: rest => '\n' :: withLineFeeds rest
  | character :: rest => character :: withLineFeeds rest
  | [] => []

/-- A text without carriage returns is left alone. -/
theorem withLineFeeds_eq_self {text : List Char} (plain : '\r' ∉ text) :
    withLineFeeds text = text := by
  fun_induction withLineFeeds text with
  | case1 => simp at plain
  | case2 => simp at plain
  | case3 character rest _ _ ih =>
    rw [ih (fun member => plain (List.mem_cons_of_mem _ member))]
  | case4 => rfl

end TreeStyle.Text
