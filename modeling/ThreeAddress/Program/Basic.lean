import ThreeAddress.Fault
import ThreeAddress.Quad

/-!
# Programs

A finished sequence of quadruples. Jump targets are indices into it.
-/

namespace ThreeAddress

/-- The instructions of a program, in order. -/
structure Program where
  quads : Array Quad := #[]
deriving Repr, DecidableEq

namespace Program

/-- The number of instructions. -/
def size (p : Program) : Nat :=
  p.quads.size

/-- Whether there is no instruction. -/
def isEmpty (p : Program) : Bool :=
  p.quads.isEmpty

/-- The instruction at an index, if there is one. -/
def get? (p : Program) (index : Nat) : Option Quad :=
  p.quads[index]?

/-- The instruction at an index that has to exist. -/
def fetch (p : Program) (index : Nat) : Except Fault Quad :=
  match p.get? index with
  | some quad => .ok quad
  | none => .error (.indexOutOfBounds p.size index)

/-- The last instruction, if there is one. -/
def last? (p : Program) : Option Quad :=
  p.quads.back?

/-- The instructions, one to a line. -/
def text (p : Program) : String :=
  String.join (p.quads.toList.map fun q => q.text ++ "\n")

end Program

end ThreeAddress
