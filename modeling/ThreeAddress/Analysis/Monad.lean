import ThreeAddress.Diagnostic
import ThreeAddress.Generator
import ThreeAddress.Lexer.Tokens

/-!
# The state of an analysis

An analysis reads tokens from a lexer, declares variables, and generates code as it goes. It runs
in a state monad whose failures keep the state reached: the log of a failed analysis is as long
as the analysis got.

This module has the steps from which the rules of the grammar are put together: looking at a
token, taking it, giving it back, insisting on one, entering a category, failing at a place.
-/

namespace ThreeAddress

/-- How an analysis stops early: the program is rejected, with the place still a span, or a check
of the library itself fails. -/
inductive Stop where
  | rejected (cause : Cause) (span : Option Span) (stack : List NonTerminal)
  | fault (fault : Fault)
deriving Repr, DecidableEq

/-- An analysis in the course of its work. -/
structure AnalysisState where
  lexer : Lexer
  symbols : SymbolTable := {}
  generator : Generator := {}
  /-- the open categories, innermost first -/
  inside : List NonTerminal := []
  /-- where the last token that was taken stands -/
  lastSpan : Option Span := none
  log : Array Event := #[]
deriving Repr, DecidableEq

/-- A part of an analysis. -/
abbrev Analyzer := EStateM Stop AnalysisState

namespace Analyzer

/-! ## Reporting and failing -/

/-- Adds an event to the log. -/
def report (event : Event) : Analyzer Unit :=
  modify fun s => { s with log := s.log.push event }

/-- Rejects the program. -/
def reject {α : Type} (cause : Cause) (span : Option Span) : Analyzer α := do
  throw (.rejected cause span (← get).inside.reverse)

/-- Rejects the program at the token that was taken last. -/
def rejectHere {α : Type} (cause : Cause) : Analyzer α := do
  reject cause (← get).lastSpan

/-- Stops at a failed check. -/
def faulty {α : Type} (fault : Fault) : Analyzer α :=
  throw (.fault fault)

/-- The answer of a call that may fault. -/
def trust {α : Type} : Except Fault α → Analyzer α
  | .ok a => return a
  | .error fault => faulty fault

/-- Rejects the program because of what was found: at that token, or right after the last one if
the source has ended. -/
def unexpected {α : Type} (cause : Option Token → Cause) : Option Token → Analyzer α
  | some found => reject (cause (some found)) (some found.span)
  | none => do
    match (← get).lastSpan with
    | none => reject (cause none) none
    | some span => reject (cause none) (some (← trust span.after))

/-! ## Calls on the components -/

/-- A call on the lexer. -/
def onLexer {α : Type} (call : Lexer → Step Lexer α) : Analyzer α :=
  modifyGet fun s =>
    let ⟨answer, lexer, events⟩ := call s.lexer
    (answer, { s with lexer, log := s.log ++ events })

/-- A call on the symbol table. -/
def onSymbols {α : Type} (call : SymbolTable → Step SymbolTable α) : Analyzer α :=
  modifyGet fun s =>
    let ⟨answer, symbols, events⟩ := call s.symbols
    (answer, { s with symbols, log := s.log ++ events })

/-- A call on the code generator. -/
def onGenerator {α : Type} (call : Generator → Step Generator α) : Analyzer α :=
  modifyGet fun s =>
    let ⟨answer, generator, events⟩ := call s.generator
    (answer, { s with generator, log := s.log ++ events })

/-! ## Tokens -/

/-- The next token, which stays the next one. -/
def peek : Analyzer (Option Token) := do
  match ← onLexer Lexer.peek with
  | .ok token => return token
  | .error error => reject (.lexical error) (some error.span)

/-- Takes the next token. -/
def consume : Analyzer (Option Token) := do
  match ← onLexer Lexer.next with
  | .error error => reject (.lexical error) (some error.span)
  | .ok none => return none
  | .ok (some token) =>
    report (.consumed token)
    modify fun s => { s with lastSpan := some token.span }
    return some token

/-- Takes the next token if it has a property, and says whether it did. -/
def consumeIf (property : Token → Bool) : Analyzer Bool := do
  match ← peek with
  | none => return false
  | some token =>
    if property token then
      return (← consume).isSome
    else
      return false

/-- Gives back the token that was just taken. -/
def retract : Analyzer Unit := do
  match ← onLexer Lexer.retract with
  | .ok () => return ()
  | .error error => rejectHere (.internal (.retract error))

/-- Takes a token that has to be the given lexeme. -/
def expect (kind : TokenKind) (text : String) : Analyzer Unit := do
  match ← consume with
  | none => unexpected (.expectedOneOf [text]) none
  | some token =>
    if token.is kind text then return ()
    else unexpected (.expectedOneOf [text]) (some token)

/-- Takes a token that has to be a reserved word. -/
def expectKeyword (k : Keyword) : Analyzer Unit :=
  expect .keyword k.text

/-- Takes a token that has to be a mark. -/
def expectSymbol (text : String) : Analyzer Unit :=
  expect .symbol text

/-- Takes a token that has to be an identifier. -/
def expectIdentifier : Analyzer Token := do
  match ← consume with
  | none => unexpected (.unexpected "an identifier") none
  | some token =>
    if token.kind = .identifier then return token
    else unexpected (.unexpected "an identifier") (some token)

/-- The type of the variable that an identifier names. -/
def reference (token : Token) : Analyzer VarType := do
  match (← get).symbols.lookup? token.text with
  | some type => return type
  | none => reject (.declaration (.undeclared token.text)) (some token.span)

/-! ## Code -/

/-- Patches a jump to the next instruction. -/
def patchHere (jump : PendingJump) : Analyzer Unit := do
  match ← onGenerator (·.patchHere jump) with
  | .ok () => return ()
  | .error (.refused error) => rejectHere (.internal (.patch error))
  | .error (.fault fault) => faulty fault

/-! ## Categories -/

/-- Recognizes a category. It stays open if recognizing it fails. -/
def within {α : Type} (category : NonTerminal) (body : Analyzer α) : Analyzer α := do
  report (.starting category)
  modify fun s => { s with inside := category :: s.inside }
  let a ← body
  report (.finished category)
  modify fun s => { s with inside := s.inside.tail }
  return a

end Analyzer

end ThreeAddress
