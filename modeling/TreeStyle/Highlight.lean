import TreeStyle.Text.Quoted

/-!
# Highlight groups

A declaration may borrow its style from the base theme by naming a highlight
group.  The groups form a closed set, and their names are matched exactly.

Main statements: `Highlight.mem_all` and `Highlight.ofName?_name` (each group is
found under its own name).
-/

namespace TreeStyle

set_option autoImplicit false

/-- The highlight groups. -/
inductive Highlight where
  | canvas | comment | constant | string | escapeSeq | char | number | boolean | float
  | identifier | function | statement | conditional | repetition | label | operator | keyword
  | exception | preprocessor | inclusion | definition | macroName | precondit | typeName
  | storageClass | structureName | typedef | special | specialChar | tag | delimiter
  | specialComment | debug | underlined | ignore | error | todo | lineNr | prompt | statusLine
  | tabLine | tabOption | tabSelect
  deriving DecidableEq, Repr

namespace Highlight

/-- All highlight groups. -/
def all : List Highlight := [
  canvas, comment, constant, string, escapeSeq, char, number, boolean, float, identifier,
  function, statement, conditional, repetition, label, operator, keyword, exception, preprocessor,
  inclusion, definition, macroName, precondit, typeName, storageClass, structureName, typedef,
  special, specialChar, tag, delimiter, specialComment, debug, underlined, ignore, error, todo,
  lineNr, prompt, statusLine, tabLine, tabOption, tabSelect]

/-- The name of a group, as stylesheets and base themes write it. -/
def name : Highlight → String
  | canvas => "canvas"
  | comment => "comment"
  | constant => "constant"
  | string => "string"
  | escapeSeq => "escape-seq"
  | char => "char"
  | number => "number"
  | boolean => "boolean"
  | float => "float"
  | identifier => "identifier"
  | function => "function"
  | statement => "statement"
  | conditional => "conditional"
  | repetition => "repeat"
  | label => "label"
  | operator => "operator"
  | keyword => "keyword"
  | exception => "exception"
  | preprocessor => "preprocessor"
  | inclusion => "include"
  | definition => "define"
  | macroName => "macro"
  | precondit => "precondit"
  | typeName => "type"
  | storageClass => "storage-class"
  | structureName => "structure"
  | typedef => "typedef"
  | special => "special"
  | specialChar => "special-char"
  | tag => "tag"
  | delimiter => "delimiter"
  | specialComment => "special-comment"
  | debug => "debug"
  | underlined => "underlined"
  | ignore => "ignore"
  | error => "error"
  | todo => "todo"
  | lineNr => "line-nr"
  | prompt => "prompt"
  | statusLine => "status-line"
  | tabLine => "tab-line"
  | tabOption => "tab-option"
  | tabSelect => "tab-select"

/-- The group with the given name. -/
def ofName? (text : String) : Option Highlight := all.find? fun group => group.name == text

theorem mem_all (group : Highlight) : group ∈ all := by cases group <;> decide

/-- Each group is found under its own name. -/
theorem ofName?_name (group : Highlight) : ofName? group.name = some group := by
  cases group <;> decide

/-- The wording for a name that no group has. -/
def unknownMessage (text : String) : String := "unknown highlight group " ++ Text.quote text

/-- The wording for a group that the base theme leaves out. -/
def missingMessage (group : Highlight) : String :=
  "highlight group " ++ Text.quote group.name ++ " not in base theme"

end Highlight

end TreeStyle
