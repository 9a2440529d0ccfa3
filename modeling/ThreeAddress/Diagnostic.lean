import ThreeAddress.Lexer.Basic
import ThreeAddress.Location
import ThreeAddress.Program.Builder
import ThreeAddress.SymbolTable

/-!
# Diagnostics

Why a source program is rejected, where, and which syntactic categories were open at that point.
An internal cause is a refusal that an analysis provokes by its own calls on the lexer or the
builder, not by its source.
-/

namespace ThreeAddress

/-- A refusal of a component that an analysis drives. -/
inductive InternalError where
  | retract (error : RetractError)
  | patch (error : PatchError)
  | unpatched (jumps : UnpatchedJumps)
deriving Repr, DecidableEq

/-- The text of a refusal. -/
def InternalError.message : InternalError → String
  | retract error => error.message
  | patch error => error.message
  | unpatched jumps => jumps.message

/-- Why a program is rejected. -/
inductive Cause where
  | lexical (error : LexError)
  /-- another lexeme was expected; at the end of the source none is found -/
  | unexpected (expected : String) (found : Option Token)
  | declaration (error : DeclarationError)
  | internal (error : InternalError)
deriving Repr, DecidableEq

namespace Cause

/-- One of several lexemes was expected. -/
def expectedOneOf (lexemes : List String) (found : Option Token) : Cause :=
  .unexpected (" or ".intercalate (lexemes.map fun l => s!"'{l}'")) found

/-- The text of what was found. -/
def foundText : Option Token → String
  | some token => s!"'{token.text}'"
  | none => "end of input"

/-- The text of a cause. -/
def message : Cause → String
  | lexical error => s!"lexical error: {error.message}"
  | unexpected expected found => s!"syntax error: expected {expected}, found {foundText found}"
  | declaration error => s!"semantic error: {error.message}"
  | internal error => s!"internal error: {error.message}"

end Cause

/-- The rejection of a program. The open categories are listed from the outside in. -/
structure Diagnostic where
  cause : Cause
  location : Option Location := none
  stack : List NonTerminal := []
deriving Repr, DecidableEq

namespace Diagnostic

/-- The open categories, one to a line behind its depth. -/
def stackText (stack : List NonTerminal) : String :=
  match stack with
  | [] => ""
  | _ :: _ =>
    "non terminal stack:\n"
      ++ String.join (stack.zipIdx.map fun (category, depth) => s!"  {depth}: {category.name}\n")

/-- The text of a diagnostic. -/
def message (d : Diagnostic) : String :=
  Location.report d.cause.message d.location ++ stackText d.stack

end Diagnostic

end ThreeAddress
