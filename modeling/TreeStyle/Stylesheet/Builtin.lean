import TreeStyle.Stylesheet.Reading

/-!
# Built-in stylesheets

Two stylesheets come with the library: one for documents in TOML, and one for
stylesheets themselves.
-/

namespace TreeStyle.Builtin

set_option autoImplicit false

/-- The stylesheet for documents in TOML, line by line. -/
def tomlLines : List String := [
  "# Styles for TOML documents, as parsed by tree-sitter-toml.",
  "",
  "comment: comment;",
  "",
  "table > bare_key, table > dotted_key, table > quoted_key: type;",
  "table_array_element > bare_key, table_array_element > dotted_key: type;",
  "table_array_element > bare_key: attr: italic;",
  "pair > bare_key, pair > dotted_key: identifier;",
  "quoted_key: string;",
  "",
  "string: string;",
  "string escape_sequence: escape-seq;",
  "integer: number;",
  "float: float;",
  "boolean: boolean;",
  "offset_date_time, local_date_time, local_date, local_time: constant;",
  "",
  "array > inline_table, inline_table > pair: delimiter;",
  "comment + table: special-comment;"]

/-- The stylesheet for stylesheets, line by line. -/
def tssLines : List String := [
  "# Styles for tss stylesheets, as parsed by tree-sitter-tss.",
  "",
  "comment: comment;",
  "",
  "sel_kind: identifier;",
  "sel_twins > sel_kind, sel_siblings > sel_kind: type;",
  "sel_child > sel_kind: structure;",
  "",
  "highlight: keyword;",
  "fg, bg, attrb, attribute: statement;",
  "properties color: constant;",
  "properties attrs: \x7b fg: magenta, attr: italic \x7d;"]

/-- The names of the built-in stylesheets with their sources, in the order of names. -/
def sources : List (String × String) :=
  [("toml", String.join (tomlLines.map (· ++ "\n"))),
   ("tss", String.join (tssLines.map (· ++ "\n")))]

/-- The names of the built-in stylesheets. -/
def names : List String := sources.map Prod.fst

/-- The source of a built-in stylesheet. -/
def source? (name : String) : Option String := sources.lookup name

/-- The wording for a name that no built-in stylesheet has. -/
def unknownMessage (name : String) : String :=
  "No built-in stylesheet named " ++ Text.quote name

end TreeStyle.Builtin
