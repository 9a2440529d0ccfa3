import ThreeAddress.Lexer.Automaton
import ThreeAddress.Step

/-!
# The lexer

The lexer hands out the tokens of a source one by one. It can look at the next token without
taking it, and it takes back the token it handed out last. Both keep one token waiting in a slot;
the automaton only runs when the slot is empty.

The source is followed by a space, so that every lexeme has a character after it that completes
it.
-/

namespace ThreeAddress

/-- A lexer in the course of its work. -/
structure Lexer where
  cursor : Cursor
  /-- the token that may be given back -/
  last : Option Token := none
  /-- the token that waits -/
  pushback : Option Token := none
  /-- whether a lexical error was met -/
  poisoned : Bool := false
deriving Repr, DecidableEq

/-- Why a token cannot be given back. -/
inductive RetractError where
  | nothingToRetract
  | alreadyRetracted
deriving Repr, DecidableEq

/-- The text of a refusal to take a token back. -/
def RetractError.message : RetractError → String
  | nothingToRetract => "no token to retract"
  | alreadyRetracted => "a token was already retracted"

namespace Lexer

/-- A lexer at the start of a source. -/
def ofSource (source : String) : Lexer where
  cursor := ⟨0, source.toList ++ [' ']⟩

/-- Runs the automaton once. -/
def scan (l : Lexer) : Step Lexer (Except LexError (Option Token)) :=
  match l.cursor.scan with
  | (.token t, cursor) => ⟨.ok (some t), { l with cursor }, [.scanned t]⟩
  | (.ended _, cursor) => ⟨.ok none, { l with cursor }, []⟩
  | (.failed e, cursor) => ⟨.error e, { l with cursor, poisoned := true }, []⟩

/-- Hands out the next token; none at the end of the source. -/
def next (l : Lexer) : Step Lexer (Except LexError (Option Token)) :=
  match l.pushback with
  | some t => ⟨.ok (some t), { l with pushback := none, last := some t }, []⟩
  | none =>
    match l.scan with
    | ⟨.ok t, l, events⟩ => ⟨.ok t, { l with last := t }, events⟩
    | ⟨.error e, l, events⟩ => ⟨.error e, l, events⟩

/-- Takes back the token that was just handed out. -/
def retract (l : Lexer) : Step Lexer (Except RetractError Unit) :=
  match l.pushback, l.last with
  | some _, _ => ⟨.error .alreadyRetracted, l, []⟩
  | none, none => ⟨.error .nothingToRetract, l, []⟩
  | none, some t => ⟨.ok (), { l with last := none, pushback := some t }, [.retracted t]⟩

/-- The next token, which stays the next one. -/
def peek (l : Lexer) : Step Lexer (Except LexError (Option Token)) :=
  match l.pushback with
  | some t => ⟨.ok (some t), { l with last := none }, []⟩
  | none =>
    match l.scan with
    | ⟨.ok t, l, events⟩ => ⟨.ok t, { l with last := none, pushback := t }, events⟩
    | ⟨.error e, l, events⟩ => ⟨.error e, l, events⟩

/-- The next item of the token sequence, which ends with the source or with the first lexical
error. -/
def item (l : Lexer) : Step Lexer (Option (Except LexError Token)) :=
  if l.poisoned then ⟨none, l, []⟩
  else
    match l.next with
    | ⟨.ok none, l, events⟩ => ⟨none, l, events⟩
    | ⟨.ok (some t), l, events⟩ => ⟨some (.ok t), l, events⟩
    | ⟨.error e, l, events⟩ => ⟨some (.error e), l, events⟩

end Lexer

end ThreeAddress
