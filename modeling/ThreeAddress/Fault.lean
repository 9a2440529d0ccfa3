import ThreeAddress.Operator

/-!
# Faults

A fault is the failure of a check that guards the program's own arithmetic and its own calls: a
machine word that would overflow, a jump asked for with an operator that does not jump. It is
kept apart from the diagnostics about source programs, which are never faults.
-/

namespace ThreeAddress

/-- A check that failed. -/
inductive Fault where
  /-- a sum does not fit its word -/
  | additionOverflow
  /-- a difference is negative -/
  | subtractionOverflow
  /-- a text is longer than any text can be -/
  | capacityOverflow
  /-- an instruction was asked for beyond the end of a program -/
  | indexOutOfBounds (size index : Nat)
  /-- a jump was asked for with another operator -/
  | notAJump (op : Operator)
  /-- a comparison was asked for with another operator -/
  | notAComparison (op : Operator)
  /-- the recursion bound of an analysis was used up -/
  | recursionBound
deriving Repr, DecidableEq

/-- The text of a fault. -/
def Fault.message : Fault → String
  | .additionOverflow => "attempt to add with overflow"
  | .subtractionOverflow => "attempt to subtract with overflow"
  | .capacityOverflow => "capacity overflow"
  | .indexOutOfBounds size index =>
    s!"index out of bounds: the len is {size} but the index is {index}"
  | .notAJump op => s!"{op.symbol} is not a jump"
  | .notAComparison op => s!"{op.symbol} is not a comparison"
  | .recursionBound => "the recursion bound of the analysis was used up"

/-- The number of values of a machine word. -/
def wordLimit : Nat := UInt64.size

/-- The sum of two words, which has to be a word again. -/
def addWords (m n : Nat) : Except Fault Nat :=
  if m + n < wordLimit then .ok (m + n) else .error .additionOverflow

/-- The least number of bytes that no text has room for. -/
def textLimit : Nat := wordLimit / 2

/-- A number of bytes that a text is to have, which there has to be room for. -/
def textSize (n : Nat) : Except Fault Nat :=
  if n < textLimit then .ok n else .error .capacityOverflow

end ThreeAddress
