import ThreeAddress.NonTerminal
import ThreeAddress.Proofs.Grammar.Predictive
import ThreeAddress.Proofs.Syntax.Terminal

/-!
# The grammar of the source language

The context-free grammar over the twenty syntactic categories, and a predictive table for it.

```text
program           → program IDENTIFIER body '.'
body              → declarations begin commands end
declarations      → var_declaration more_declarations | ε
more_declarations → ';' declarations | ε
var_declaration   → var_type ':' variables
var_type          → real | integer
variables         → IDENTIFIER more_variables
more_variables    → ',' variables | ε
commands          → command more_commands
more_commands     → ';' commands | commands | ε
command           → read '(' IDENTIFIER ')' | write '(' IDENTIFIER ')'
                  | IDENTIFIER ':=' expression
                  | if condition then commands else_branch '$'
                  | while condition do commands '$'
else_branch       → else commands | ε
condition         → expression relation expression
relation          → '=' | '<>' | '>=' | '<=' | '>' | '<'
expression        → term other_terms
other_terms       → ('+' | '-') term other_terms | ε
term              → unary_op factor more_factors
unary_op          → '-' | ε
factor            → IDENTIFIER | INTEGER | FLOAT | '(' expression ')'
more_factors      → ('*' | '/') factor more_factors | ε
```

One token is enough to choose between the right sides of a category (`Grammar.table`). An empty
right side is chosen whenever no other one fits; a mistake is then found by whoever wants the next
token.
-/

namespace ThreeAddress

open ContextFreeRule

namespace Grammar

/-! ## 1. Rules -/

/-- The rules for declarations. -/
def declarationRules : List (ContextFreeRule Terminal NonTerminal) :=
  [⟨.declarations, [.nonterminal .varDeclaration, .nonterminal .moreDeclarations]⟩,
   ⟨.declarations, []⟩,
   ⟨.moreDeclarations, [.terminal .semicolon, .nonterminal .declarations]⟩,
   ⟨.moreDeclarations, []⟩,
   ⟨.varDeclaration, [.nonterminal .varType, .terminal .colon, .nonterminal .variableNames]⟩,
   ⟨.varType, [.terminal (.word .realWord)]⟩,
   ⟨.varType, [.terminal (.word .integerWord)]⟩,
   ⟨.variableNames, [.terminal .identifier, .nonterminal .moreVariables]⟩,
   ⟨.moreVariables, [.terminal (.mark .comma), .nonterminal .variableNames]⟩,
   ⟨.moreVariables, []⟩]

/-- The rules for commands. -/
def commandRules : List (ContextFreeRule Terminal NonTerminal) :=
  [⟨.commands, [.nonterminal .command, .nonterminal .moreCommands]⟩,
   ⟨.moreCommands, [.terminal .semicolon, .nonterminal .commands]⟩,
   ⟨.moreCommands, [.nonterminal .commands]⟩,
   ⟨.moreCommands, []⟩,
   ⟨.command, [.terminal (.word .readWord), .terminal (.mark .leftParen), .terminal .identifier,
      .terminal (.mark .rightParen)]⟩,
   ⟨.command, [.terminal (.word .writeWord), .terminal (.mark .leftParen), .terminal .identifier,
      .terminal (.mark .rightParen)]⟩,
   ⟨.command, [.terminal .identifier, .terminal .becomes, .nonterminal .expression]⟩,
   ⟨.command, [.terminal (.word .ifWord), .nonterminal .condition, .terminal (.word .thenWord),
      .nonterminal .commands, .nonterminal .elseBranch, .terminal (.mark .dollar)]⟩,
   ⟨.command, [.terminal (.word .whileWord), .nonterminal .condition, .terminal (.word .doWord),
      .nonterminal .commands, .terminal (.mark .dollar)]⟩,
   ⟨.elseBranch, [.terminal (.word .elseWord), .nonterminal .commands]⟩,
   ⟨.elseBranch, []⟩]

/-- The rules for conditions and expressions. -/
def expressionRules : List (ContextFreeRule Terminal NonTerminal) :=
  [⟨.condition, [.nonterminal .expression, .nonterminal .relation, .nonterminal .expression]⟩]
    ++ Comparison.all.map (fun c => ⟨.relation, [.terminal (.comparison c)]⟩) ++
  [⟨.expression, [.nonterminal .term, .nonterminal .otherTerms]⟩,
   ⟨.otherTerms, [.terminal (.operator .add), .nonterminal .term, .nonterminal .otherTerms]⟩,
   ⟨.otherTerms, [.terminal (.operator .subtract), .nonterminal .term, .nonterminal .otherTerms]⟩,
   ⟨.otherTerms, []⟩,
   ⟨.term, [.nonterminal .unaryOp, .nonterminal .factor, .nonterminal .moreFactors]⟩,
   ⟨.unaryOp, [.terminal (.operator .subtract)]⟩,
   ⟨.unaryOp, []⟩,
   ⟨.factor, [.terminal .identifier]⟩,
   ⟨.factor, [.terminal .integer]⟩,
   ⟨.factor, [.terminal .float]⟩,
   ⟨.factor, [.terminal (.mark .leftParen), .nonterminal .expression,
      .terminal (.mark .rightParen)]⟩,
   ⟨.moreFactors, [.terminal (.operator .mult), .nonterminal .factor, .nonterminal .moreFactors]⟩,
   ⟨.moreFactors, [.terminal (.operator .divide), .nonterminal .factor,
      .nonterminal .moreFactors]⟩,
   ⟨.moreFactors, []⟩]

/-- The rules of the grammar. -/
def rules : List (ContextFreeRule Terminal NonTerminal) :=
  [⟨.program, [.terminal (.word .programWord), .terminal .identifier, .nonterminal .body,
      .terminal (.mark .point)]⟩,
   ⟨.body, [.nonterminal .declarations, .terminal (.word .beginWord), .nonterminal .commands,
      .terminal (.word .endWord)]⟩]
    ++ declarationRules ++ commandRules ++ expressionRules

end Grammar

/-- **The grammar of the source language.** -/
def grammar : ContextFreeGrammar Terminal :=
  grammarOf .program Grammar.rules

namespace Grammar

/-- A list of tokens that the grammar derives from `program`. -/
def Derivable (ts : List Token) : Prop :=
  ∃ word ∈ grammar.language, ts.map Token.terminal? = word.map some

/-- A list of tokens with which a derivable list can begin. -/
def Viable (ts : List Token) : Prop :=
  ∃ word ∈ grammar.language, ts.map Token.terminal? <+: word.map some

/-! ## 2. The table -/

/-- The terminals that a declaration starts with. -/
def typeWords : List Terminal :=
  [.word .realWord, .word .integerWord]

/-- The terminals that a command starts with. -/
def commandStarts : List Terminal :=
  [.identifier, .word .readWord, .word .writeWord, .word .ifWord, .word .whileWord]

/-- The terminals that a factor starts with. -/
def factorStarts : List Terminal :=
  [.identifier, .integer, .float, .mark .leftParen]

/-- The terminals that a term starts with. -/
def termStarts : List Terminal :=
  .operator .subtract :: factorStarts

/-- The terminals after a list of commands. -/
def commandsEnds : List Terminal :=
  [.word .endWord, .word .elseWord, .mark .dollar]

/-- The terminals after an expression. -/
def expressionEnds : List Terminal :=
  Comparison.all.map .comparison ++ [.word .thenWord, .word .doWord, .mark .rightParen, .semicolon]
    ++ commandStarts ++ commandsEnds

/-- What the table is made from: empty words, first terminals, terminals that follow. -/
def lookahead : Lookahead Terminal NonTerminal where
  nullable
    | .declarations | .moreDeclarations | .moreVariables | .moreCommands | .elseBranch
    | .otherTerms | .unaryOp | .moreFactors => true
    | _ => false
  first
    | .program => [.word .programWord]
    | .body => .word .beginWord :: typeWords
    | .declarations | .varDeclaration | .varType => typeWords
    | .moreDeclarations => [.semicolon]
    | .variableNames => [.identifier]
    | .moreVariables => [.mark .comma]
    | .commands | .command => commandStarts
    | .moreCommands => .semicolon :: commandStarts
    | .elseBranch => [.word .elseWord]
    | .condition | .expression | .term => termStarts
    | .relation => Comparison.all.map .comparison
    | .otherTerms => [.operator .add, .operator .subtract]
    | .unaryOp => [.operator .subtract]
    | .factor => factorStarts
    | .moreFactors => [.operator .mult, .operator .divide]
  follow
    | .program => []
    | .body => [.mark .point]
    | .declarations | .moreDeclarations => [.word .beginWord]
    | .varDeclaration | .variableNames | .moreVariables => [.semicolon, .word .beginWord]
    | .varType => [.colon]
    | .commands | .moreCommands => commandsEnds
    | .command => .semicolon :: commandStarts ++ commandsEnds
    | .elseBranch => [.mark .dollar]
    | .condition => [.word .thenWord, .word .doWord]
    | .relation => termStarts
    | .expression | .otherTerms => expressionEnds
    | .term | .moreFactors => [.operator .add, .operator .subtract] ++ expressionEnds
    | .unaryOp => factorStarts
    | .factor => [.operator .mult, .operator .divide, .operator .add, .operator .subtract]
        ++ expressionEnds

/-- The right side that the next terminal calls for. -/
def predict : NonTerminal → Option Terminal → Option (List (Item Terminal NonTerminal))
  | .program, _ => some [.terminal (.word .programWord), .terminal .identifier, .nonterminal .body,
      .terminal (.mark .point)]
  | .body, _ => some [.nonterminal .declarations, .terminal (.word .beginWord),
      .nonterminal .commands, .terminal (.word .endWord)]
  | .declarations, some (.word .realWord) | .declarations, some (.word .integerWord) =>
    some [.nonterminal .varDeclaration, .nonterminal .moreDeclarations]
  | .declarations, _ => some []
  | .moreDeclarations, some .semicolon =>
    some [.terminal .semicolon, .nonterminal .declarations]
  | .moreDeclarations, _ => some []
  | .varDeclaration, _ =>
    some [.nonterminal .varType, .terminal .colon, .nonterminal .variableNames]
  | .varType, some (.word .realWord) => some [.terminal (.word .realWord)]
  | .varType, some (.word .integerWord) => some [.terminal (.word .integerWord)]
  | .varType, _ => none
  | .variableNames, _ => some [.terminal .identifier, .nonterminal .moreVariables]
  | .moreVariables, some (.mark .comma) =>
    some [.terminal (.mark .comma), .nonterminal .variableNames]
  | .moreVariables, _ => some []
  | .commands, _ => some [.nonterminal .command, .nonterminal .moreCommands]
  | .moreCommands, some .semicolon => some [.terminal .semicolon, .nonterminal .commands]
  | .moreCommands, some .identifier | .moreCommands, some (.word .readWord)
  | .moreCommands, some (.word .writeWord) | .moreCommands, some (.word .ifWord)
  | .moreCommands, some (.word .whileWord) => some [.nonterminal .commands]
  | .moreCommands, _ => some []
  | .command, some (.word .readWord) => some [.terminal (.word .readWord),
      .terminal (.mark .leftParen), .terminal .identifier, .terminal (.mark .rightParen)]
  | .command, some (.word .writeWord) => some [.terminal (.word .writeWord),
      .terminal (.mark .leftParen), .terminal .identifier, .terminal (.mark .rightParen)]
  | .command, some .identifier =>
    some [.terminal .identifier, .terminal .becomes, .nonterminal .expression]
  | .command, some (.word .ifWord) => some [.terminal (.word .ifWord), .nonterminal .condition,
      .terminal (.word .thenWord), .nonterminal .commands, .nonterminal .elseBranch,
      .terminal (.mark .dollar)]
  | .command, some (.word .whileWord) => some [.terminal (.word .whileWord),
      .nonterminal .condition, .terminal (.word .doWord), .nonterminal .commands,
      .terminal (.mark .dollar)]
  | .command, _ => none
  | .elseBranch, some (.word .elseWord) =>
    some [.terminal (.word .elseWord), .nonterminal .commands]
  | .elseBranch, _ => some []
  | .condition, _ =>
    some [.nonterminal .expression, .nonterminal .relation, .nonterminal .expression]
  | .relation, some (.comparison c) => some [.terminal (.comparison c)]
  | .relation, _ => none
  | .expression, _ => some [.nonterminal .term, .nonterminal .otherTerms]
  | .otherTerms, some (.operator .add) =>
    some [.terminal (.operator .add), .nonterminal .term, .nonterminal .otherTerms]
  | .otherTerms, some (.operator .subtract) =>
    some [.terminal (.operator .subtract), .nonterminal .term, .nonterminal .otherTerms]
  | .otherTerms, _ => some []
  | .term, _ => some [.nonterminal .unaryOp, .nonterminal .factor, .nonterminal .moreFactors]
  | .unaryOp, some (.operator .subtract) => some [.terminal (.operator .subtract)]
  | .unaryOp, _ => some []
  | .factor, some .identifier => some [.terminal .identifier]
  | .factor, some .integer => some [.terminal .integer]
  | .factor, some .float => some [.terminal .float]
  | .factor, some (.mark .leftParen) => some [.terminal (.mark .leftParen),
      .nonterminal .expression, .terminal (.mark .rightParen)]
  | .factor, _ => none
  | .moreFactors, some (.operator .mult) =>
    some [.terminal (.operator .mult), .nonterminal .factor, .nonterminal .moreFactors]
  | .moreFactors, some (.operator .divide) =>
    some [.terminal (.operator .divide), .nonterminal .factor, .nonterminal .moreFactors]
  | .moreFactors, _ => some []

theorem relation_mem_rules (c : Comparison) :
    ⟨.relation, [.terminal (.comparison c)]⟩ ∈ rules := by
  cases c <;> decide

theorem mem_rules_of_predict (A : NonTerminal) (item : Option Terminal)
    (out : List (Item Terminal NonTerminal)) (h : predict A item = some out) :
    ⟨A, out⟩ ∈ rules := by
  unfold predict at h
  split at h
  all_goals cases h
  all_goals first
    | exact relation_mem_rules _
    | decide

/-- **The grammar is predictive**: the next token decides which right side is meant. -/
def table : PredictiveTable rules where
  toLookahead := lookahead
  predict := predict
  predict_mem := mem_rules_of_predict
  nullable_of_rule := by decide
  first_of_rule := by decide
  follow_of_rule := by decide
  predict_of_start := by decide
  predict_of_follow := by decide
  predict_of_end := by decide

/-- Where no word of a category can start, the table says what it says at the end: the category is
empty, or it is missing. -/
theorem predict_of_not_first {A : NonTerminal} {item : Option Terminal}
    (h : ∀ a ∈ lookahead.first A, item ≠ some a) : predict A item = predict A none := by
  have checked : ∀ A ∈ NonTerminal.all, ∀ a ∈ Terminal.all, a ∉ lookahead.first A →
      predict A (some a) = predict A none := by decide +kernel
  cases item with
  | none => rfl
  | some a =>
    exact checked A (by cases A <;> decide) a (Terminal.mem_all a) fun ha => h a ha rfl

/-! ## 3. Words -/

/-- An order of the categories in which each has a right side with earlier ones only. -/
def rank : NonTerminal → Nat
  | .unaryOp | .otherTerms | .moreFactors | .moreCommands | .elseBranch | .moreVariables
  | .moreDeclarations | .declarations => 0
  | .factor | .relation | .varType | .command | .variableNames => 1
  | .term | .varDeclaration | .commands => 2
  | .expression | .body => 3
  | .condition | .program => 4

/-- Every form has a word, so whatever has been read can be completed. -/
theorem exists_yields (form : List (Item Terminal NonTerminal)) : ∃ w, Yields rules form w := by
  refine exists_yields_of_rank rank (fun A => ?_) form
  cases A <;> decide

theorem derivable_iff {ts : List Token} :
    Derivable ts ↔
      ∃ word,
        Yields rules [.nonterminal .program] word ∧ ts.map Token.terminal? = word.map some := by
  simp only [Derivable, grammar, mem_language_iff]

theorem viable_iff {ts : List Token} :
    Viable ts ↔ ∃ word rest, Yields rules [.nonterminal .program] (word ++ rest) ∧
      ts.map Token.terminal? = word.map some := by
  simp only [Viable, grammar, mem_language_iff]
  constructor
  · rintro ⟨word, hword, v, hv⟩
    obtain ⟨u, rest, rfl, hu, hrest⟩ := List.map_eq_append_iff.mp hv.symm
    exact ⟨u, rest, hword, hu.symm⟩
  · rintro ⟨word, rest, hword, hts⟩
    exact ⟨word ++ rest, hword, by rw [hts, List.map_append]; exact List.prefix_append _ _⟩

end Grammar

end ThreeAddress
