import ThreeAddress.Span
import ThreeAddress.Text.Quoted

/-!
# Tokens

A token is a lexeme with its kind and its place in the source. Keywords are the twelve reserved
words, in lower case; any other word is an identifier.
-/

namespace ThreeAddress

/-- The reserved words. -/
inductive Keyword where
  | programWord
  | beginWord
  | endWord
  | realWord
  | integerWord
  | readWord
  | writeWord
  | ifWord
  | thenWord
  | elseWord
  | whileWord
  | doWord
deriving Repr, DecidableEq

namespace Keyword

/-- The spelling of a reserved word. -/
def text : Keyword → String
  | programWord => "program"
  | beginWord => "begin"
  | endWord => "end"
  | realWord => "real"
  | integerWord => "integer"
  | readWord => "read"
  | writeWord => "write"
  | ifWord => "if"
  | thenWord => "then"
  | elseWord => "else"
  | whileWord => "while"
  | doWord => "do"

/-- All reserved words. -/
def all : List Keyword :=
  [programWord, beginWord, endWord, realWord, integerWord, readWord, writeWord, ifWord, thenWord,
   elseWord, whileWord, doWord]

/-- The reserved word of a spelling. -/
def ofText? (text : String) : Option Keyword :=
  all.find? (·.text = text)

end Keyword

/-- The classes of lexemes. -/
inductive TokenKind where
  | integer
  | float
  | identifier
  | operator
  | keyword
  | attributor
  | typeDeclaration
  | symbol
  | semicolon
  | relational
deriving Repr, DecidableEq

/-- The name of a class of lexemes. -/
def TokenKind.name : TokenKind → String
  | integer => "Integer"
  | float => "Float"
  | identifier => "Identifier"
  | operator => "Operator"
  | keyword => "Keyword"
  | attributor => "Attributor"
  | typeDeclaration => "TypeDeclaration"
  | symbol => "Symbol"
  | semicolon => "Semicolon"
  | relational => "Relational"

/-- A lexeme of a source. -/
structure Token where
  span : Span
  kind : TokenKind
  text : String
deriving Repr, DecidableEq

namespace Token

/-- Whether the token is the given lexeme. -/
def is (t : Token) (kind : TokenKind) (text : String) : Bool :=
  t.kind == kind && t.text == text

/-- Whether two tokens are the same lexeme, wherever they stand. -/
def sameLexeme (t u : Token) : Bool :=
  t.is u.kind u.text

/-- The reserved word that the token is, if it is one. -/
def keyword? (t : Token) : Option Keyword :=
  if t.kind = .keyword then Keyword.ofText? t.text else none

/-- Whether the token is a given reserved word. -/
def isKeyword (t : Token) (k : Keyword) : Bool :=
  t.keyword? == some k

/-- A sentence about the token. -/
def describe (t : Token) : String :=
  s!"Token '{t.text}' is a {t.kind.name}."

/-- The token as log messages show it: its kind and its quoted text. -/
def inspect (t : Token) : String :=
  s!"{t.kind.name}({Text.quoted t.text})"

end Token

end ThreeAddress
