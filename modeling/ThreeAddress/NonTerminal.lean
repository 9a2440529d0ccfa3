/-!
# Syntactic categories

The categories of the source language, one for each rule of its grammar. Logs say when an
analysis enters and leaves one, and a diagnostic lists those that were open when it arose.
-/

namespace ThreeAddress

/-- A syntactic category of the source language. -/
inductive NonTerminal where
  | program
  | body
  | declarations
  | moreDeclarations
  | varDeclaration
  | varType
  | variableNames
  | moreVariables
  | commands
  | moreCommands
  | command
  | elseBranch
  | condition
  | relation
  | expression
  | otherTerms
  | term
  | unaryOp
  | factor
  | moreFactors
deriving Repr, DecidableEq

namespace NonTerminal

/-- The name of a category. -/
def name : NonTerminal → String
  | program => "program"
  | body => "body"
  | declarations => "declarations"
  | moreDeclarations => "more_declarations"
  | varDeclaration => "var_declaration"
  | varType => "var_type"
  | variableNames => "variables"
  | moreVariables => "more_variables"
  | commands => "commands"
  | moreCommands => "more_commands"
  | command => "command"
  | elseBranch => "else_branch"
  | condition => "condition"
  | relation => "relation"
  | expression => "expression"
  | otherTerms => "other_terms"
  | term => "term"
  | unaryOp => "unary_op"
  | factor => "factor"
  | moreFactors => "more_factors"

/-- All categories. -/
def all : List NonTerminal :=
  [program, body, declarations, moreDeclarations, varDeclaration, varType, variableNames,
   moreVariables, commands, moreCommands, command, elseBranch, condition, relation, expression,
   otherTerms, term, unaryOp, factor, moreFactors]

/-- The category of a name. -/
def ofName? (name : String) : Option NonTerminal :=
  all.find? (·.name = name)

end NonTerminal

end ThreeAddress
