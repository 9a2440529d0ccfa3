import ThreeAddress.Analysis.Monad

/-!
# Analysis of expressions and conditions

```text
expression   → term other_terms
other_terms  → ('+' | '-') term other_terms | ε
term         → unary_op factor more_factors
unary_op     → '-' | ε
factor       → IDENTIFIER | INTEGER | FLOAT | '(' expression ')'
more_factors → ('*' | '/') factor more_factors | ε
condition    → expression relation expression
relation     → '=' | '<>' | '>=' | '<=' | '>' | '<'
```

Operators associate to the left because the value so far is handed on to the rest of the
expression. A sign belongs to the first factor of its term.

The rules call each other with one unit less of a recursion bound; the bound with which an
analysis starts is never used up.
-/

namespace ThreeAddress

namespace Analyzer

/-- The next token as one of the accepted arithmetic operators, without taking it. -/
def peekArithmetic (accepted : List Operator) : Analyzer (Option Operator) := do
  match ← peek with
  | none => return none
  | some token =>
    if token.kind = .operator then
      return (Operator.ofArithmetic? token.text).filter (accepted.contains ·)
    else
      return none

/-- Computes a binary operation. -/
def binary (op : Operator) (left right : Value) : Analyzer Value := do
  trust (← onGenerator (·.binary op left right))

/-- Takes one token and gives it back unless it is a minus. -/
def unaryOp : Analyzer Bool := do
  match ← consume with
  | none => return false
  | some token =>
    if token.is .operator "-" then
      return true
    else
      retract
      return false

mutual

/-- A sum of terms. -/
def expression : Nat → Analyzer Value
  | 0 => faulty .recursionBound
  | bound + 1 => do
    let left ← within .term (term bound)
    within .otherTerms (otherTerms bound left)

/-- The terms after `left`, added to it from left to right. -/
def otherTerms : Nat → Value → Analyzer Value
  | 0, _ => faulty .recursionBound
  | bound + 1, left => do
    match ← peekArithmetic [.add, .subtract] with
    | none => return left
    | some op =>
      let _ ← consume
      let right ← within .term (term bound)
      let value ← binary op left right
      within .otherTerms (otherTerms bound value)

/-- A product of factors, the first of which may have a sign. -/
def term : Nat → Analyzer Value
  | 0 => faulty .recursionBound
  | bound + 1 => do
    let negated ← within .unaryOp unaryOp
    let value ← within .factor (factor bound)
    let value ← if negated then trust (← onGenerator (·.negate value)) else pure value
    within .moreFactors (moreFactors bound value)

/-- A variable, a number, or an expression between parentheses. -/
def factor : Nat → Analyzer Value
  | 0 => faulty .recursionBound
  | bound + 1 => do
    let found ← consume
    match found with
    | none => unexpected (.unexpected "an identifier, a number or '('") none
    | some token =>
      if token.kind = .identifier then
        return ⟨.var token.text, ← reference token⟩
      else if token.kind = .integer then
        return ⟨.const token.text, .integer⟩
      else if token.kind = .float then
        return ⟨.const token.text, .real⟩
      else if token.is .symbol "(" then
        let value ← within .expression (expression bound)
        expectSymbol ")"
        return value
      else
        unexpected (.unexpected "an identifier, a number or '('") (some token)

/-- The factors after `left`, applied to it from left to right. -/
def moreFactors : Nat → Value → Analyzer Value
  | 0, _ => faulty .recursionBound
  | bound + 1, left => do
    match ← peekArithmetic [.mult, .divide] with
    | none => return left
    | some op =>
      let _ ← consume
      let right ← within .factor (factor bound)
      let value ← binary op left right
      within .moreFactors (moreFactors bound value)

end

/-- The lexemes of the six relations, in the order in which a diagnostic lists them. -/
def relations : List String :=
  ["=", "<>", ">=", "<=", ">", "<"]

/-- Takes a token that has to be a relation. -/
def relation : Analyzer Operator := do
  match ← consume with
  | none => unexpected (.expectedOneOf relations) none
  | some token =>
    if token.kind = .relational then
      match Operator.ofRelational? token.text with
      | some op => return op
      | none => unexpected (.expectedOneOf relations) (some token)
    else
      unexpected (.expectedOneOf relations) (some token)

/-- A comparison of two expressions. -/
def condition (bound : Nat) : Analyzer Condition := do
  let left ← within .expression (expression bound)
  let op ← within .relation relation
  let right ← within .expression (expression bound)
  trust (← onGenerator (·.compare op left right))

end Analyzer

end ThreeAddress
