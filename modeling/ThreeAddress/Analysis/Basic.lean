import ThreeAddress.Analysis.Command
import ThreeAddress.Analysis.Declaration

/-!
# Analysis of programs

```text
program → program IDENTIFIER body '.'
body    → declarations begin commands end
```

An analysis checks a source and generates its code in one pass. It ends with the program and the
symbol table, or with the first violation that it meets, located in the source.
-/

namespace ThreeAddress

/-- What an analysis yields. -/
structure Analysis where
  program : Program
  symbols : SymbolTable
deriving Repr, DecidableEq

namespace Analyzer

/-- The declarations, and the commands between `begin` and `end`. -/
def body (bound : Nat) : Analyzer Unit := do
  within .declarations (declarations bound)
  expectKeyword .beginWord
  within .commands (commands bound)
  expectKeyword .endWord

/-- A program with its name, up to the point that ends it. -/
def program (bound : Nat) : Analyzer Unit := do
  expectKeyword .programWord
  let name ← expectIdentifier
  report (.named name.text)
  within .body (body bound)
  expectSymbol "."

/-- A whole source: a program, and nothing after it. -/
def wholeSource (bound : Nat) : Analyzer Analysis := do
  within .program (program bound)
  match ← consume with
  | some trailing => unexpected (.unexpected "end of input") (some trailing)
  | none =>
    let _ ← onGenerator (·.halt)
    let s ← get
    match s.generator.finish with
    | .ok program => return ⟨program, s.symbols⟩
    | .error jumps => throw (.rejected (.internal (.unpatched jumps)) none [])

end Analyzer

/-- Why an analysis has no result. -/
inductive AnalysisFailure where
  | rejected (diagnostic : Diagnostic)
  | fault (fault : Fault)
deriving Repr, DecidableEq

/-- Resolves the place of a rejection in the source. -/
def Stop.locate (source : String) : Stop → AnalysisFailure
  | .fault f => .fault f
  | .rejected cause span stack =>
    match span.mapM (Location.resolve source) with
    | .ok location => .rejected ⟨cause, location, stack⟩
    | .error f => .fault f

namespace Analysis

/-- A recursion bound that is enough for a source: each character starts at most one token, and
fewer than eight rules are entered between two tokens. -/
def recursionBound (source : String) : Nat :=
  8 * (source.length + 2)

/-- The run of an analysis on a source. -/
def run (source : String) : EStateM.Result Stop AnalysisState Analysis :=
  (Analyzer.wholeSource (recursionBound source)).run { lexer := Lexer.ofSource source }

/-- Analyzes a source, and gives the events reported on the way. -/
def ofSource (source : String) : Except AnalysisFailure Analysis × List Event :=
  match run source with
  | .ok analysis s => (.ok analysis, s.log.toList)
  | .error stop s => (.error (stop.locate source), s.log.toList)

end Analysis

end ThreeAddress
