import ThreeAddress.Text.Alphabetic
import ThreeAddress.Text.WhiteSpace
import ThreeAddress.Token

/-!
# The automaton of the lexer

A finite automaton cuts one lexeme out of the source. In each state a character is skipped
(before the lexeme has started), shifted onto the lexeme, or makes the lexeme complete; a lexeme
that is complete without the character leaves it for the next one. A character that fits nowhere
is a flaw of the source.

* `initial`: a letter starts a word, a digit a number; `:` and `= < >` wait for a second
  character; the other marks are complete at once; white space is skipped.
* `word`: letters and digits go on.
* `number`: digits go on, a point asks for a fraction, a letter is a flaw.
* `point`: a digit has to follow.
* `fraction`: digits go on, a letter is a flaw.
* `colon`: `=` completes an attributor, a digit is a flaw.
* `relation`: `=` completes it whatever came first, and so does `>` after `<`.

So `==` is one lexeme, of the relational kind, although no relation is written that way.
-/

namespace ThreeAddress

/-- A state of the automaton: what has been read of the current lexeme. -/
inductive LexState where
  /-- nothing yet -/
  | initial
  /-- a letter, then letters and digits -/
  | word
  /-- digits -/
  | number
  /-- digits and a point -/
  | point
  /-- digits, a point and digits -/
  | fraction
  /-- a colon -/
  | colon
  /-- one of `=`, `<` and `>` -/
  | relation (first : Char)
deriving Repr, DecidableEq

/-- Why a character cannot stand where it does. -/
inductive Flaw where
  | letterAfterNumber
  | expectedDigitAfterDot
  | digitAfterColon
  | unexpectedChar
deriving Repr, DecidableEq

/-- What the automaton does with a character. -/
inductive LexAction where
  /-- drop it; the lexeme has not started -/
  | skip
  /-- add it to the lexeme -/
  | shift (state : LexState)
  /-- complete the lexeme, with the character or without it -/
  | emit (kind : TokenKind) (consume : Bool)
  /-- refuse it -/
  | fail (flaw : Flaw)
deriving Repr, DecidableEq

namespace LexState

/-- The first character of a lexeme, or one between lexemes. -/
def stepInitial (c : Char) : LexAction :=
  if Text.isAlphabetic c then .shift word
  else if c.isDigit then .shift number
  else if c = ':' then .shift colon
  else if c = '=' ∨ c = '<' ∨ c = '>' then .shift (relation c)
  else if c = '+' ∨ c = '-' ∨ c = '*' ∨ c = '/' then .emit .operator true
  else if c = '(' ∨ c = ')' ∨ c = ',' ∨ c = '.' ∨ c = '$' then .emit .symbol true
  else if c = ';' then .emit .semicolon true
  else if Text.isWhiteSpace c then .skip
  else .fail .unexpectedChar

/-- The transition function of the automaton. -/
def step : LexState → Char → LexAction
  | initial, c => stepInitial c
  | word, c => if Text.isAlphabetic c || c.isDigit then .shift word else .emit .identifier false
  | number, c =>
    if c.isDigit then .shift number
    else if c = '.' then .shift point
    else if Text.isAlphabetic c then .fail .letterAfterNumber
    else .emit .integer false
  | point, c => if c.isDigit then .shift fraction else .fail .expectedDigitAfterDot
  | fraction, c =>
    if c.isDigit then .shift fraction
    else if Text.isAlphabetic c then .fail .letterAfterNumber
    else .emit .float false
  | colon, c =>
    if c = '=' then .emit .attributor true
    else if c.isDigit then .fail .digitAfterColon
    else .emit .typeDeclaration false
  | relation first, c =>
    if c = '=' then .emit .relational true
    else if c = '>' ∧ first = '<' then .emit .relational true
    else .emit .relational false

end LexState

/-- A flaw at a character of the source. -/
structure LexError where
  flaw : Flaw
  found : Char
  span : Span
deriving Repr, DecidableEq

/-- The text of a lexical error. -/
def LexError.message (e : LexError) : String :=
  match e.flaw with
  | .letterAfterNumber => s!"found a letter {Text.quotedChar e.found} after a number"
  | .expectedDigitAfterDot => s!"expected a digit after '.', found {Text.quotedChar e.found}"
  | .digitAfterColon => s!"expected letters after ':', found {Text.quotedChar e.found}"
  | .unexpectedChar => s!"invalid char: {Text.quotedChar e.found}"

/-- A place in the source: the byte offset, and the characters from there on. -/
structure Cursor where
  offset : Nat
  rest : List Char
deriving Repr, DecidableEq

/-- How a run of the automaton ends. -/
inductive Scan where
  | token (token : Token)
  /-- the characters ran out in this state -/
  | ended (state : LexState)
  | failed (error : LexError)
deriving Repr, DecidableEq

/-- The token of a complete lexeme; reserved words are told from identifiers here. -/
def Token.ofLexeme (kind : TokenKind) (start stop : Nat) (lexeme : String) : Token where
  span := ⟨start, stop - start⟩
  kind := if kind = .identifier ∧ (Keyword.ofText? lexeme).isSome then .keyword else kind
  text := lexeme

namespace Cursor

/-- Runs the automaton over the characters from `offset` on. `start` is the offset of the lexeme
and `lexeme` what has been shifted onto it. The cursor stops after the lexeme, or at the
character that was refused. -/
def scanFrom (state : LexState) (start : Nat) (lexeme : String) (offset : Nat) :
    List Char → Scan × Cursor
  | [] => (.ended state, ⟨offset, []⟩)
  | c :: cs =>
    match state.step c with
    | .skip => scanFrom state (offset + c.utf8Size) lexeme (offset + c.utf8Size) cs
    | .shift state => scanFrom state start (lexeme.push c) (offset + c.utf8Size) cs
    | .emit kind true =>
      (.token (Token.ofLexeme kind start (offset + c.utf8Size) (lexeme.push c)),
        ⟨offset + c.utf8Size, cs⟩)
    | .emit kind false => (.token (Token.ofLexeme kind start offset lexeme), ⟨offset, c :: cs⟩)
    | .fail flaw => (.failed ⟨flaw, c, ⟨offset, c.utf8Size⟩⟩, ⟨offset, c :: cs⟩)

/-- Cuts the next lexeme out of the source. -/
def scan (cursor : Cursor) : Scan × Cursor :=
  scanFrom .initial cursor.offset "" cursor.offset cursor.rest

end Cursor

end ThreeAddress
