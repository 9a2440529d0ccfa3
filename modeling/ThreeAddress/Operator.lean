/-!
# Operators of quadruples

Every instruction of the three-address code is a quadruple headed by one of these operators. The
symbol of an operator is what listings show; the arithmetic and relational operators share theirs
with the source language.
-/

namespace ThreeAddress

/-- What a quadruple does. -/
inductive Operator where
  | alloc
  | read
  | write
  | store
  | add
  | subtract
  | mult
  | divide
  | negate
  | eq
  | neq
  | gte
  | lte
  | gt
  | lt
  | jumpIfFalse
  | jump
  | halt
deriving Repr, DecidableEq

namespace Operator

/-- The text of an operator in a listing. -/
def symbol : Operator → String
  | alloc => "alloc"
  | read => "read"
  | write => "write"
  | store => ":="
  | add => "+"
  | subtract => "-"
  | mult => "*"
  | divide => "/"
  | negate => "minus"
  | eq => "="
  | neq => "<>"
  | gte => ">="
  | lte => "<="
  | gt => ">"
  | lt => "<"
  | jumpIfFalse => "jf"
  | jump => "goto"
  | halt => "halt"

/-- The operator of a binary arithmetic lexeme. -/
def ofArithmetic? (text : String) : Option Operator :=
  [add, subtract, mult, divide].find? (·.symbol = text)

/-- The operator of a relational lexeme. -/
def ofRelational? (text : String) : Option Operator :=
  [eq, neq, gte, lte, gt, lt].find? (·.symbol = text)

/-- Whether the operator transfers control to the target in its result slot. -/
def isJump : Operator → Bool
  | jumpIfFalse | jump => true
  | _ => false

/-- Whether the operator compares two values. -/
def isComparison : Operator → Bool
  | eq | neq | gte | lte | gt | lt => true
  | _ => false

end Operator

end ThreeAddress
