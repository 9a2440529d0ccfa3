import ThreeAddress.Analysis.Monad

/-!
# Analysis of declarations

```text
declarations      → var_declaration more_declarations | ε
more_declarations → ';' declarations | ε
var_declaration   → var_type ':' variables
var_type          → real | integer
variables         → IDENTIFIER more_variables
more_variables    → ',' variables | ε
```

Every declared variable is set up with the zero of its type as soon as its name is read.
-/

namespace ThreeAddress

namespace Analyzer

/-- The type that a token declares. -/
def declaredType? (token : Token) : Option VarType :=
  token.keyword?.bind VarType.ofKeyword?

/-- Takes a token that has to be the name of a type. -/
def varType : Analyzer VarType := do
  let expected := [Keyword.realWord.text, Keyword.integerWord.text]
  match ← consume with
  | none => unexpected (.expectedOneOf expected) none
  | some token =>
    match declaredType? token with
    | some type => return type
    | none => unexpected (.expectedOneOf expected) (some token)

/-- Declares the variable that an identifier names and sets it up. -/
def declare (ident : Token) (type : VarType) : Analyzer Unit := do
  match ← onSymbols (·.declare ident.text type) with
  | .error error => reject (.declaration error) (some ident.span)
  | .ok () =>
    let _ ← onGenerator (·.allocate ident.text type)

/-- The variables of one declaration. -/
def variableNames : Nat → VarType → Analyzer Unit
  | 0, _ => faulty .recursionBound
  | bound + 1, type => do
    let ident ← expectIdentifier
    declare ident type
    within .moreVariables do
      if ← consumeIf (·.is .symbol ",") then
        within .variableNames (variableNames bound type)

/-- The variables of one type. -/
def varDeclaration (bound : Nat) : Analyzer Unit := do
  let type ← within .varType varType
  expect .typeDeclaration ":"
  within .variableNames (variableNames bound type)

/-- The declaration part. -/
def declarations : Nat → Analyzer Unit
  | 0 => faulty .recursionBound
  | bound + 1 => do
    if ((← peek).bind declaredType?).isSome then
      within .varDeclaration (varDeclaration bound)
      within .moreDeclarations do
        if ← consumeIf (·.kind = .semicolon) then
          within .declarations (declarations bound)

end Analyzer

end ThreeAddress
