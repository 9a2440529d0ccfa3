import ThreeAddress.Operator
import ThreeAddress.Text.Lines

/-!
# Quadruples

A quadruple is an operator with up to two arguments and a result, each slot of which may be
empty. The result slot of a jump holds its target, which is either an instruction index or, while
the index is not known yet, the number of a hole to be filled in later.
-/

namespace ThreeAddress

/-- Where a jump goes. -/
inductive Target where
  /-- an instruction index -/
  | line (index : Nat)
  /-- not known yet; the hole is filled in by the builder that issued its number -/
  | pending (hole : Nat)
deriving Repr, DecidableEq

/-- The content of a slot of a quadruple. Temporaries and variables are different name spaces. -/
inductive Operand where
  | var (name : String)
  | const (text : String)
  | temp (number : Nat)
  | target (target : Target)
deriving Repr, DecidableEq

namespace Operand

/-- The text of an operand in a listing. -/
def text : Operand → String
  | var name => name
  | const text => text
  | temp number => s!"T{number}"
  | target (.line index) => toString index
  | target (.pending hole) => s!"<pending {hole}>"

/-- Whether the operand is a jump target that is not known yet. -/
def isPending : Operand → Bool
  | target (.pending _) => true
  | _ => false

end Operand

/-- One instruction. -/
structure Quad where
  op : Operator
  arg1 : Option Operand := none
  arg2 : Option Operand := none
  result : Option Operand := none
deriving Repr, DecidableEq

namespace Quad

/-- A jump, with the target in its result slot. -/
def jump (op : Operator) (condition : Option Operand) (target : Target) : Quad :=
  { op, arg1 := condition, result := some (.target target) }

/-- The text of a slot; an empty slot has none. -/
def slotText (slot : Option Operand) : String :=
  (slot.map Operand.text).getD ""

/-- The operator and the three slots, separated by semicolons and without white space at the
end. -/
def text (q : Quad) : String :=
  Text.trimEnd
    s!"{q.op.symbol}; {slotText q.arg1}; {slotText q.arg2}; {slotText q.result}"

/-- The instruction a jump goes to, once it is known. -/
def target? (q : Quad) : Option Nat :=
  match q.op.isJump, q.result with
  | true, some (.target (.line index)) => some index
  | _, _ => none

/-- Whether the result slot is a jump target that is not known yet. -/
def isPending (q : Quad) : Bool :=
  q.result.any Operand.isPending

end Quad

end ThreeAddress
