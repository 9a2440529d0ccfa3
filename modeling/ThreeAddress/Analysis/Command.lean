import ThreeAddress.Analysis.Expression

/-!
# Analysis of commands

```text
commands      → command more_commands
more_commands → ';' commands | commands | ε
command       → read '(' IDENTIFIER ')'
              | write '(' IDENTIFIER ')'
              | IDENTIFIER ':=' expression
              | if condition then commands else_branch '$'
              | while condition do commands '$'
else_branch   → else commands | ε
```

The semicolon between commands may be left out before a token that starts a command.

The code of a conditional jumps over its first branch, and from the end of that branch over the
second, which may be empty; the code of a loop jumps back to its condition. The two jumps forward
are patched once the index after the branch is known.
-/

namespace ThreeAddress

namespace Analyzer

/-- Whether a token can start a command. -/
def startsCommand (token : Token) : Bool :=
  token.kind == .identifier
    || [Keyword.readWord, .writeWord, .ifWord, .whileWord].any (token.isKeyword ·)

/-- A declared variable between parentheses. -/
def parenthesizedVariable : Analyzer Token := do
  expectSymbol "("
  let ident ← expectIdentifier
  let _ ← reference ident
  expectSymbol ")"
  return ident

/-- The rest of an assignment to a variable. A real value may go to an integer variable, which is
reported. -/
def assignment (bound : Nat) (target : Token) : Analyzer Unit := do
  let declared ← reference target
  expect .attributor ":="
  let value ← within .expression (expression bound)
  if declared = .integer ∧ value.type = .real then
    report (.narrowing target.text)
  let _ ← onGenerator (·.store target.text value)

mutual

/-- One or more commands. -/
def commands : Nat → Analyzer Unit
  | 0 => faulty .recursionBound
  | bound + 1 => do
    within .command (command bound)
    within .moreCommands (moreCommands bound)

/-- The commands that follow, if any. -/
def moreCommands : Nat → Analyzer Unit
  | 0 => faulty .recursionBound
  | bound + 1 => do
    if ← consumeIf (·.kind = .semicolon) then
      within .commands (commands bound)
    else if (← peek).any startsCommand then
      within .commands (commands bound)

/-- One command, told by its first token. -/
def command : Nat → Analyzer Unit
  | 0 => faulty .recursionBound
  | bound + 1 => do
    match ← consume with
    | none => unexpected (.unexpected "a command") none
    | some token =>
      match token.keyword? with
      | some .readWord =>
        let ident ← parenthesizedVariable
        let _ ← onGenerator (·.read ident.text)
      | some .writeWord =>
        let ident ← parenthesizedVariable
        let _ ← onGenerator (·.write ident.text)
      | some .ifWord => conditional bound
      | some .whileWord => loop bound
      | _ =>
        if token.kind = .identifier then
          assignment bound token
        else
          unexpected (.unexpected "a command") (some token)

/-- The rest of a conditional. -/
def conditional : Nat → Analyzer Unit
  | 0 => faulty .recursionBound
  | bound + 1 => do
    let holds ← within .condition (condition bound)
    expectKeyword .thenWord
    let onFalse ← trust (← onGenerator (·.jumpIfFalse holds))
    within .commands (commands bound)
    let skipElse ← trust (← onGenerator (·.jump))
    patchHere onFalse
    within .elseBranch do
      if ← consumeIf (·.isKeyword .elseWord) then
        within .commands (commands bound)
    patchHere skipElse
    expectSymbol "$"

/-- The rest of a loop. -/
def loop : Nat → Analyzer Unit
  | 0 => faulty .recursionBound
  | bound + 1 => do
    let start := (← get).generator.nextIndex
    report (.loopStart start)
    let holds ← within .condition (condition bound)
    expectKeyword .doWord
    let exit ← trust (← onGenerator (·.jumpIfFalse holds))
    within .commands (commands bound)
    let _ ← trust (← onGenerator (·.jumpTo start))
    patchHere exit
    expectSymbol "$"

end

end Analyzer

end ThreeAddress
