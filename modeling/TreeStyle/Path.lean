import TreeStyle.Text.Parts

/-!
# Paths of files

A path is a run of steps with slashes between them.  It is written without empty
steps and without steps that stay where they are; a path without any other step is
the directory itself.  Two slashes at the start are kept, three or more count as
one.
-/

namespace TreeStyle.Path

set_option autoImplicit false

/-- The steps of a path that lead somewhere. -/
def steps (path : List Char) : List (List Char) :=
  (Text.partsAt '/' path).filter fun step => step ≠ [] && step ≠ ['.']

/-- The slashes that a path starts with. -/
def root (path : List Char) : List Char :=
  match (path.takeWhile (· == '/')).length with
  | 0 => []
  | 2 => ['/', '/']
  | _ => ['/']

/-- The path that starts with some slashes and has the given steps. -/
def written (slashes : List Char) (steps : List (List Char)) : String :=
  let path := slashes ++ List.intercalate ['/'] steps
  if path = [] then "." else String.ofList path

/-- The path without steps that lead nowhere. -/
def normalise (path : String) : String := written (root path.toList) (steps path.toList)

/-- The directory that the last step of a path starts from. -/
def parent (path : String) : String := written (root path.toList) (steps path.toList).dropLast

end TreeStyle.Path
