import ThreeAddress.Text.Lines

/-!
# Paths

A path is text cut into pieces by slashes. Empty pieces and single dots say nothing, except that
a dot at the very start of a relative path counts as a step of its own. What remains are the
steps that a look-up takes one after the other.
-/

namespace ThreeAddress

namespace Path

/-- Whether the path starts at the root. -/
def isAbsolute (path : String) : Bool :=
  path.toList.head? == some '/'

/-- Whether the path ends in a slash, which asks for a directory. -/
def asksForDirectory (path : String) : Bool :=
  path.toList.getLast? == some '/'

/-- The pieces of a path between slashes. -/
def pieces (path : String) : List String :=
  (Text.split '/' path.toList).map String.ofList

/-- The steps of a look-up: the pieces that are not empty. -/
def steps (path : String) : List String :=
  (pieces path).filter (· ≠ "")

/-- The pieces of a path up to the last one that counts. Empty pieces and dots do not, except for
a dot at the start of a relative path. -/
def dropIdle (relative : Bool) : List String → List String
  | [] => []
  | piece :: rest =>
    match dropIdle false rest with
    | [] => if piece ≠ "" ∧ (relative ∨ piece ≠ ".") then [piece] else []
    | kept => piece :: kept

/-- The path without its last step: nothing for the empty path and for the root. The result is
empty if the last step was the only one. -/
def parent? (path : String) : Option String :=
  let relative := !isAbsolute path
  let body := if relative then pieces path else (pieces path).tail
  match dropIdle relative body with
  | [] => none
  | kept =>
    let parent := "/".intercalate (dropIdle relative kept.dropLast)
    some (if relative then parent else "/" ++ parent)

end Path

end ThreeAddress
