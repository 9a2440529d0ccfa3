import ThreeAddress.Program.Basic

/-!
# Listings

A listing shows a program one instruction to a line, under a header row that names the columns,
and with the index of each instruction in front of it if asked for.
-/

namespace ThreeAddress

/-- What a listing shows besides the instructions. -/
structure Listing where
  header : Bool := true
  lineNumbers : Bool := false
deriving Repr, DecidableEq

namespace Listing

/-- The names of the columns. -/
def columns : String :=
  "operator; argument1; argument2; result"

/-- The header row, aligned with the instructions. -/
def headerRow (l : Listing) : String :=
  (if l.lineNumbers then "     " else "") ++ columns ++ "\n"

/-- The row of an instruction. -/
def row (l : Listing) (quad : Quad) (index : Nat) : String :=
  (if l.lineNumbers then Text.fourDigits index ++ " " else "") ++ quad.text ++ "\n"

/-- The listing of a program. -/
def render (l : Listing) (program : Program) : String :=
  (if l.header then l.headerRow else "")
    ++ String.join (program.quads.toList.zipIdx.map fun (quad, index) => l.row quad index)

end Listing

end ThreeAddress
