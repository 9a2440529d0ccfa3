import ThreeAddress.NonTerminal
import ThreeAddress.Proofs.Syntax.Terminal
import ThreeAddress.SymbolTable

/-!
# Parse trees and what they say

`Tree A` is the type of the parse trees of the category `A`: one constructor for each right side of
a rule of `A`, with a subtree for each category in it and a text for each lexeme that is not fixed.
`Tree.lexemes` reads the leaves off.

A parse tree says more than a program means: semicolons and parentheses, and the way in which a sum
is spread over its categories. `Tree.meaning` is the abstract syntax, computed category by category.
The rest of a sum or of a product means a function, because operators associate to the left: it
takes what stands to its left and returns the whole.
-/

namespace ThreeAddress

/-! ## 1. Abstract syntax -/

/-- What an expression means. -/
inductive Expression where
  | var (name : String)
  | literal (type : VarType) (text : String)
  | negate (operand : Expression)
  | binary (op : Arithmetic) (left right : Expression)
deriving Repr, DecidableEq

/-- What a condition means. -/
structure Test where
  left : Expression
  comparison : Comparison
  right : Expression
deriving Repr, DecidableEq

/-- What a command means, or several. -/
inductive Statement where
  | skip
  | read (name : String)
  | write (name : String)
  | assign (name : String) (value : Expression)
  | seq (first second : Statement)
  | ite (test : Test) (onTrue onFalse : Statement)
  | loop (test : Test) (body : Statement)
deriving Repr, DecidableEq

/-- What a program means. -/
structure SourceProgram where
  name : String
  symbols : List Symbol
  body : Statement
deriving Repr, DecidableEq

/-- What the trees of a category mean. -/
@[reducible] def Meaning : NonTerminal → Type
  | .program => SourceProgram
  | .body => List Symbol × Statement
  | .declarations | .moreDeclarations | .varDeclaration => List Symbol
  | .varType => VarType
  | .variableNames | .moreVariables => List String
  | .commands | .moreCommands | .command | .elseBranch => Statement
  | .condition => Test
  | .relation => Comparison
  | .expression | .term | .factor => Expression
  | .otherTerms | .moreFactors => Expression → Expression
  | .unaryOp => Bool

/-! ## 2. Parse trees -/

/-- The operators of sums. -/
def Arithmetic.additive : List Arithmetic :=
  [.add, .subtract]

/-- The operators of products. -/
def Arithmetic.multiplicative : List Arithmetic :=
  [.mult, .divide]

/-- The kind of the literals of a type. -/
def VarType.literalKind : VarType → TokenKind
  | .integer => .integer
  | .real => .float

/-- The parse trees of a category. -/
inductive Tree : NonTerminal → Type where
  | program (name : String) (body : Tree .body) : Tree .program
  | body (declarations : Tree .declarations) (commands : Tree .commands) : Tree .body
  | noDeclarations : Tree .declarations
  | declarations (first : Tree .varDeclaration) (more : Tree .moreDeclarations) :
      Tree .declarations
  | endDeclarations : Tree .moreDeclarations
  | moreDeclarations (rest : Tree .declarations) : Tree .moreDeclarations
  | varDeclaration (type : Tree .varType) (names : Tree .variableNames) : Tree .varDeclaration
  | varType (type : VarType) : Tree .varType
  | variableNames (name : String) (more : Tree .moreVariables) : Tree .variableNames
  | endVariables : Tree .moreVariables
  | moreVariables (rest : Tree .variableNames) : Tree .moreVariables
  | commands (first : Tree .command) (more : Tree .moreCommands) : Tree .commands
  | endCommands : Tree .moreCommands
  | separated (rest : Tree .commands) : Tree .moreCommands
  | juxtaposed (rest : Tree .commands) : Tree .moreCommands
  | read (name : String) : Tree .command
  | write (name : String) : Tree .command
  | assign (name : String) (value : Tree .expression) : Tree .command
  | conditional (test : Tree .condition) (onTrue : Tree .commands) (onFalse : Tree .elseBranch) :
      Tree .command
  | loop (test : Tree .condition) (body : Tree .commands) : Tree .command
  | noElse : Tree .elseBranch
  | elseBranch (commands : Tree .commands) : Tree .elseBranch
  | condition (left : Tree .expression) (relation : Tree .relation) (right : Tree .expression) :
      Tree .condition
  | relation (comparison : Comparison) : Tree .relation
  | expression (first : Tree .term) (more : Tree .otherTerms) : Tree .expression
  | endTerms : Tree .otherTerms
  | otherTerms (op : Arithmetic) (additive : op ∈ Arithmetic.additive) (next : Tree .term)
      (more : Tree .otherTerms) : Tree .otherTerms
  | term (sign : Tree .unaryOp) (first : Tree .factor) (more : Tree .moreFactors) : Tree .term
  | sign : Tree .unaryOp
  | noSign : Tree .unaryOp
  | identifier (name : String) : Tree .factor
  | literal (type : VarType) (text : String) : Tree .factor
  | parenthesized (inner : Tree .expression) : Tree .factor
  | endFactors : Tree .moreFactors
  | moreFactors (op : Arithmetic) (multiplicative : op ∈ Arithmetic.multiplicative)
      (next : Tree .factor) (more : Tree .moreFactors) : Tree .moreFactors

/-- The lexeme of a reserved word. -/
def Keyword.lexeme (k : Keyword) : Lexeme :=
  (.keyword, k.text)

/-- The lexeme of a mark. -/
def Mark.lexeme (m : Mark) : Lexeme :=
  (.symbol, m.text)

/-- The lexeme of an arithmetic operator. -/
def Arithmetic.lexeme (op : Arithmetic) : Lexeme :=
  (.operator, op.operator.symbol)

namespace Tree

/-- The lexemes at the leaves of a tree, from left to right. -/
def lexemes : {A : NonTerminal} → Tree A → List Lexeme
  | _, program name b =>
    Keyword.programWord.lexeme :: (.identifier, name) :: (b.lexemes ++ [Mark.point.lexeme])
  | _, body ds cs =>
    ds.lexemes ++ Keyword.beginWord.lexeme :: (cs.lexemes ++ [Keyword.endWord.lexeme])
  | _, noDeclarations => []
  | _, declarations first more => first.lexemes ++ more.lexemes
  | _, endDeclarations => []
  | _, moreDeclarations rest => (.semicolon, ";") :: rest.lexemes
  | _, varDeclaration type names => type.lexemes ++ (.typeDeclaration, ":") :: names.lexemes
  | _, varType type => [(.keyword, type.name)]
  | _, variableNames name more => (.identifier, name) :: more.lexemes
  | _, endVariables => []
  | _, moreVariables rest => Mark.comma.lexeme :: rest.lexemes
  | _, commands first more => first.lexemes ++ more.lexemes
  | _, endCommands => []
  | _, separated rest => (.semicolon, ";") :: rest.lexemes
  | _, juxtaposed rest => rest.lexemes
  | _, read name =>
    [Keyword.readWord.lexeme, Mark.leftParen.lexeme, (.identifier, name), Mark.rightParen.lexeme]
  | _, write name =>
    [Keyword.writeWord.lexeme, Mark.leftParen.lexeme, (.identifier, name), Mark.rightParen.lexeme]
  | _, assign name value => (.identifier, name) :: (.attributor, ":=") :: value.lexemes
  | _, conditional test onTrue onFalse =>
    Keyword.ifWord.lexeme :: (test.lexemes ++ Keyword.thenWord.lexeme ::
      (onTrue.lexemes ++ (onFalse.lexemes ++ [Mark.dollar.lexeme])))
  | _, loop test cs =>
    Keyword.whileWord.lexeme :: (test.lexemes ++ Keyword.doWord.lexeme ::
      (cs.lexemes ++ [Mark.dollar.lexeme]))
  | _, noElse => []
  | _, elseBranch cs => Keyword.elseWord.lexeme :: cs.lexemes
  | _, condition left r right => left.lexemes ++ (r.lexemes ++ right.lexemes)
  | _, relation c => [(.relational, c.operator.symbol)]
  | _, expression first more => first.lexemes ++ more.lexemes
  | _, endTerms => []
  | _, otherTerms op _ next more => op.lexeme :: (next.lexemes ++ more.lexemes)
  | _, term s first more => s.lexemes ++ (first.lexemes ++ more.lexemes)
  | _, sign => [Arithmetic.subtract.lexeme]
  | _, noSign => []
  | _, identifier name => [(.identifier, name)]
  | _, literal type text => [(type.literalKind, text)]
  | _, parenthesized inner => Mark.leftParen.lexeme :: (inner.lexemes ++ [Mark.rightParen.lexeme])
  | _, endFactors => []
  | _, moreFactors op _ next more => op.lexeme :: (next.lexemes ++ more.lexemes)

theorem lexemes_command_ne_nil (tree : Tree .command) : tree.lexemes ≠ [] := by
  cases tree <;> simp [lexemes]

theorem lexemes_varDeclaration_ne_nil (tree : Tree .varDeclaration) : tree.lexemes ≠ [] := by
  cases tree
  simp [lexemes]

/-- **The abstract syntax of a tree.** A sign applies to the first factor of its term only. -/
def meaning : {A : NonTerminal} → Tree A → Meaning A
  | _, program name b => ⟨name, b.meaning.1, b.meaning.2⟩
  | _, body ds cs => (ds.meaning, cs.meaning)
  | _, noDeclarations => []
  | _, declarations first more => first.meaning ++ more.meaning
  | _, endDeclarations => []
  | _, moreDeclarations rest => rest.meaning
  | _, varDeclaration type names => names.meaning.map (⟨·, type.meaning⟩)
  | _, varType type => type
  | _, variableNames name more => name :: more.meaning
  | _, endVariables => []
  | _, moreVariables rest => rest.meaning
  | _, commands first more => .seq first.meaning more.meaning
  | _, endCommands => .skip
  | _, separated rest => rest.meaning
  | _, juxtaposed rest => rest.meaning
  | _, read name => .read name
  | _, write name => .write name
  | _, assign name value => .assign name value.meaning
  | _, conditional test onTrue onFalse => .ite test.meaning onTrue.meaning onFalse.meaning
  | _, loop test cs => .loop test.meaning cs.meaning
  | _, noElse => .skip
  | _, elseBranch cs => cs.meaning
  | _, condition left r right => ⟨left.meaning, r.meaning, right.meaning⟩
  | _, relation c => c
  | _, expression first more => more.meaning first.meaning
  | _, endTerms => id
  | _, otherTerms op _ next more => fun left => more.meaning (.binary op left next.meaning)
  | _, term s first more =>
    more.meaning (if s.meaning then .negate first.meaning else first.meaning)
  | _, sign => true
  | _, noSign => false
  | _, identifier name => .var name
  | _, literal type text => .literal type text
  | _, parenthesized inner => inner.meaning
  | _, endFactors => id
  | _, moreFactors op _ next more => fun left => more.meaning (.binary op left next.meaning)

end Tree

end ThreeAddress
